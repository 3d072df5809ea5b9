import ServiceHost.Proofs.Lifecycle.Budget
import ServiceHost.Proofs.Lifecycle.Panic
import ServiceHost.Server.Assembly
/-!
The close timeout of a server, from its settings to the clock.

The only close timeout that is refused is zero.  What is accepted goes unchanged to the supervisor,
which adds it to the present moment when the last stage is entered.  If the clock can show the sum,
the processes are shut down; if it cannot, the run ends by a panic before any of them is
(`Server.shut_down_iff_deadline_fits`).  A length of time that fits its own type can be too long for
the clock (`Server.close_timeout_beyond_clock`).
-/

namespace ServiceHost.Server

open Engine Supervisor

/-! ### What is accepted -/

/-- A close timeout that is accepted is longer than nothing. -/
theorem closeTimeout_pos {W : Type} {changes : List (Change W)} {s : Server W}
    (h : ofChanges changes = .ok s) : 0 < s.settings.closeTimeout.nanos := by
  unfold ofChanges at h
  dsimp only at h
  split at h
  next => cases h
  next hfault =>
    obtain rfl := Except.ok.inj h
    rw [Nat.pos_iff_ne_zero]
    intro hzero
    have hrefused : settingsFault? (changes.foldl change ({} : Server W)).settings =
        some .zeroCloseTimeout := if_pos (beq_iff_eq.2 hzero)
    cases hfault.symm.trans hrefused

/-- Every other close timeout is accepted, however long it is. -/
theorem ofChanges_closeTimeout {W : Type} {d : Duration} (h : d.isZero = false) :
    ofChanges [.closeTimeout d] = .ok (({} : Server W).change (.closeTimeout d)) := by
  have hdefault : settingsFault? {} = none := rfl
  have htimeout : (({} : Server W).change (.closeTimeout d)).settings.closeTimeout.isZero = false :=
    h
  have haccepted : settingsFault? (({} : Server W).change (.closeTimeout d)).settings = none := by
    have hsame : addresses (({} : Server W).change (.closeTimeout d)).settings = addresses {} := rfl
    unfold settingsFault? at hdefault ⊢
    rw [htimeout, hsame]
    exact hdefault
  unfold ofChanges
  dsimp only [List.foldl_cons, List.foldl_nil]
  rw [haccepted]

/-! ### What becomes of it -/

variable {s : Server Host} {site : Site} {sup : Supervisor Host} {metrics : Metrics.State}

/-- The supervisor of a server has its close timeout, and at least the four processes that every
server has. -/
theorem assemble_eq_ok (h : s.assemble site = .ok (sup, metrics)) :
    sup.closeTimeout = s.settings.closeTimeout.nanos ∧ 4 ≤ sup.processes.length := by
  unfold assemble at h
  split at h
  next => cases h
  next telemetry m _ =>
    obtain ⟨rfl, -⟩ := Prod.mk.inj (Except.ok.inj h)
    refine ⟨rfl, ?_⟩
    simp only [List.length_append, systemComponents, List.length_cons]
    omega

/-- A server that enters a stage after the first was assembled, and its run is that of its
supervisor. -/
theorem exists_supervisor_of_entered {sch : Schedule Host} {journal : Logging.Journal}
    {outer : Scope} {tokens : Tokens} {outside : List (Nat × Token)} {stage : Stage} {time : Nat}
    (hstage : stage ≠ .idle)
    (hentered : (s.run sch site journal outer tokens outside).1.enteredAt? stage = some time) :
    ∃ (sup : Supervisor Host) (metrics : Metrics.State), s.assemble site = .ok (sup, metrics) ∧
      s.run sch site journal outer tokens outside =
        sup.run sch outer (begin (newHost site metrics journal) tokens outside site.clock) := by
  unfold run at hentered ⊢
  cases hassemble : s.assemble site with
  | error fault =>
    rw [hassemble] at hentered
    cases stage with
    | idle => exact absurd rfl hstage
    | preRunning | running | stopping | stopped => cases hentered
  | ok assembled => exact ⟨assembled.1, assembled.2, rfl, rfl⟩

/-- A server that comes to its last stage was assembled, and its run is that of its supervisor. -/
theorem exists_supervisor {sch : Schedule Host} {journal : Logging.Journal} {outer : Scope}
    {tokens : Tokens} {outside : List (Nat × Token)} {time : Nat}
    (hstopping : (s.run sch site journal outer tokens outside).1.enteredAt? .stopping =
      some time) :
    ∃ (sup : Supervisor Host) (metrics : Metrics.State), s.assemble site = .ok (sup, metrics) ∧
      s.run sch site journal outer tokens outside =
        sup.run sch outer (begin (newHost site metrics journal) tokens outside site.clock) :=
  exists_supervisor_of_entered (by simp) hstopping

/-- **A server shuts its processes down just in case the clock can show the end of the time to do
so.**  Whatever the settings are that were accepted, and whatever the clock shows first, the close
timeout is longer than nothing, and when the server enters its last stage one of two things happens.
If the clock can show the moment `closeTimeout` from then, a shutdown is called, and if those that
are called come back without a panic all processes are shut down, in reverse order, and the run
returns.  If it cannot, no process is shut down and the run ends by a panic in its last stage. -/
theorem shut_down_iff_deadline_fits (sch : Schedule Host) {changes : List (Change Host)}
    (hs : ofChanges changes = .ok s) (site : Site) (journal : Logging.Journal) (outer : Scope)
    (tokens : Tokens) (outside : List (Nat × Token)) {time : Nat}
    (hstopping : (s.run sch site journal outer tokens outside).1.enteredAt? .stopping =
      some time) :
    0 < s.settings.closeTimeout.nanos ∧
    ((s.run sch site journal outer tokens outside).1.calls .close ≠ [] ↔
      time + s.settings.closeTimeout.nanos < clockLimit) ∧
    (time + s.settings.closeTimeout.nanos < clockLimit →
      (s.run sch site journal outer tokens outside).1.ClosesReturn →
      (∃ result, (s.run sch site journal outer tokens outside).2 = .returned result) ∧
      ∃ (sup : Supervisor Host) (metrics : Metrics.State), s.assemble site = .ok (sup, metrics) ∧
        ((s.run sch site journal outer tokens outside).1.calls .close).map Call.index =
          (List.range sup.processes.length).reverse) ∧
    (clockLimit ≤ time + s.settings.closeTimeout.nanos →
      (s.run sch site journal outer tokens outside).2 = .panicked ∧
      (s.run sch site journal outer tokens outside).1.calls .close = [] ∧
      (s.run sch site journal outer tokens outside).1.stage = .stopping) := by
  obtain ⟨sup, metrics, hassemble, hrun⟩ := exists_supervisor hstopping
  obtain ⟨htimeout, hprocesses⟩ := assemble_eq_ok hassemble
  have he := fresh_begin (newHost site metrics journal) tokens outside site.clock
  rw [hrun] at hstopping ⊢
  rw [← htimeout]
  obtain ⟨e₁, e₂, hstops⟩ := stops_of_entered he (.inl (entered_mem_deeds hstopping))
  obtain rfl : e₂.now = time :=
    Option.some.inj ((hstops.enteredAt?_stopping he).symm.trans hstopping)
  refine ⟨htimeout ▸ closeTimeout_pos hs, ⟨fun hcalls => ?_, fun hfits => ?_⟩,
    fun hfits hcloses => ?_, fun hunfit => ?_⟩
  · by_contra hunfit
    exact hcalls (hstops.broken_of_unfit he (Nat.le_of_not_lt hunfit)).2.2.1
  · exact hstops.calls_ne_nil he hfits (List.length_pos_iff.1 (by omega))
  · obtain ⟨os, hcompleted⟩ := hstops.completed_of_closesReturn he hfits hcloses
    exact ⟨⟨_, hcompleted.ending⟩, sup, metrics, hassemble, closes_fullCourse hcompleted.deeds⟩
  · obtain ⟨hended, -, hcalls, hstage⟩ := hstops.broken_of_unfit he hunfit
    exact ⟨hended, hcalls, hstage⟩

/-- A server whose close timeout is the longest that can be written in whole seconds, and whose
outer scope is cancelled from the first: the clock cannot show the deadline, and no process is
shut down. -/
theorem shut_down_iff_deadline_fits_longest :
    ∃ s : Server Host, ofChanges [.closeTimeout (.seconds Duration.maxSeconds)] = .ok s ∧
      (s.run .usual { hostname := "host" } {} ⟨[0], none⟩ ⟨1, [[0]]⟩ []).2 = .panicked ∧
      (s.run .usual { hostname := "host" } {} ⟨[0], none⟩ ⟨1, [[0]]⟩ []).1.calls .close = [] := by
  have hs : ofChanges (W := Host) [.closeTimeout (.seconds Duration.maxSeconds)] =
      .ok (({} : Server Host).change (.closeTimeout (.seconds Duration.maxSeconds))) :=
    ofChanges_closeTimeout (by decide)
  have hstopping : ((({} : Server Host).change (.closeTimeout (.seconds Duration.maxSeconds))).run
      .usual { hostname := "host" } {} ⟨[0], none⟩ ⟨1, [[0]]⟩ []).1.enteredAt? .stopping =
      some (100 * Duration.nanosPerMilli) := by decide +kernel
  obtain ⟨-, -, -, hunfit⟩ := shut_down_iff_deadline_fits .usual hs { hostname := "host" } {}
    ⟨[0], none⟩ ⟨1, [[0]]⟩ [] hstopping
  obtain ⟨hended, hcalls, -⟩ := hunfit (by decide +kernel)
  exact ⟨_, hs, hended, hcalls⟩

/-- The text of a close timeout that is read and accepted, and with which a server that comes to its
last stage shuts nothing down. -/
theorem close_timeout_beyond_clock :
    ∃ (d : Duration) (s : Server Host),
      Duration.read "18446744073709551615s".toList = .ok d ∧
      ofChanges [.closeTimeout d] = .ok s ∧
      let r := s.run .usual { hostname := "host" } {} ⟨[0], none⟩ ⟨1, []⟩
        [(200 * Duration.nanosPerMilli, [0])]
      r.1.enteredAt? .stopping = some (200 * Duration.nanosPerMilli) ∧ r.2 = .panicked ∧
        r.1.calls .close = [] := by
  refine ⟨.seconds Duration.maxSeconds, _, ?_, ofChanges_closeTimeout (by decide), ?_⟩
  · decide +kernel
  · decide +kernel

end ServiceHost.Server
