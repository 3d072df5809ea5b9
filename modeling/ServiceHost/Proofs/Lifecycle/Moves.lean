import ServiceHost.Proofs.Lifecycle.Passage
/-!
The moves of a run that has come to its main stage.

`Supervisor.Moves` adds to what can be done at one go what the supervisor does itself: it records
calls and what they gave, announces, receives a report, enters a stage, makes a scope.  From the
start of its tasks a run is a row of such moves up to its end, or up to the point where only what is
left over is cleared away (`Supervisor.cleared`); `stops_or_stalls` and the two theorems named
`moves` say so.  What each move preserves therefore holds all the time in between, for every
schedule, and this is how the invariants of a whole run are proved.
-/

namespace ServiceHost.Supervisor

open Engine Relation

variable {W : Type}

/-! ### What a run does at one go -/

/-- One move of a run while a phase of its processes is called in scope `s`, and the code that is
called may do what `mine` says.  A scope is made only to shut processes down. -/
inductive Moves (phase : Phase) (s : Scope) (mine : Option Nat → Token → Prop) :
    Engine W → Engine W → Prop
  | acts {e e' : Engine W} (h : Acts mine e e') : Moves phase s mine e e'
  | called {e : Engine W} (index : Nat) :
      Moves phase s mine e (e.record (.called phase index (e.moment s (s.remaining e.now))))
  | returned {e : Engine W} (index : Nat) (o : Outcome) :
      Moves phase s mine e (e.record (.returned phase index o))
  | announced {e : Engine W} : Moves phase s mine e (e.record .announced)
  | received {e : Engine W} {r : Report} {rest : List Report}
      (first : e.mailbox.reports = r :: rest) :
      Moves phase s mine e
        (Engine.record { e with mailbox := { e.mailbox with reports := rest } } (.received r))
  | published {e : Engine W} (stage : Stage) : Moves phase s mine e (e.publish stage)
  | newScope {e : Engine W} (closing : phase = .close) : Moves phase s mine e (newScope e)
  | runCancelled {e : Engine W} : Moves phase s mine e (e.record .runCancelled)

/-- A row of moves. -/
abbrev Path (phase : Phase) (s : Scope) (mine : Option Nat → Token → Prop) :
    Engine W → Engine W → Prop :=
  ReflTransGen (Moves phase s mine)

variable {phase : Phase} {s : Scope} {mine : Option Nat → Token → Prop}

/-- What every move preserves, a row of moves preserves. -/
theorem Path.preserves {e e' : Engine W} {P : Engine W → Prop} (h : Path phase s mine e e')
    (hmove : ∀ e e', Moves phase s mine e e' → P e → P e') (he : P e) : P e' := by
  induction h with
  | refl => exact he
  | tail _ hlast ih => exact hmove _ _ hlast ih

/-- Every move only adds events of a run that goes on. -/
theorem Moves.adds {e e' : Engine W} (h : Moves phase s mine e e') :
    Adds (fun x => x.event.Ongoing) e e' := by
  cases h with
  | acts hacts => exact hacts.happens.adds.mono fun _ hx => hx.2.ongoing
  | newScope => exact .of_history_eq (Nat.le_refl _) rfl
  | called | returned | announced | received | published | runCancelled =>
    exact .of_record rfl rfl trivial

theorem Path.adds {e e' : Engine W} (h : Path phase s mine e e') :
    Adds (fun x => x.event.Ongoing) e e' :=
  h.preserves (fun _ _ hmove hadds => hadds.trans hmove.adds) (.refl ..)

/-- A row of acts is a row of moves. -/
theorem path_of_acts {e e' : Engine W} (h : ReflTransGen (Acts mine) e e') :
    Path phase s mine e e' :=
  ReflTransGen.mono (fun _ _ => Moves.acts) _ _ h

/-! ### Rows of calls -/

theorem path_call {sch : Schedule W} {index : Nat} {code : Routine W} {e e' : Engine W}
    {r : Returned} (hmine : ∀ later token, e.MayCancel s code later token → mine later token)
    (h : e.call sch phase index s code = (e', r)) :
    Path phase s mine e e' := by
  obtain ⟨e₁, hacts, hcall⟩ := call_acts mine sch phase index e hmine
  have hpath : Path phase s mine e e₁ := .head (.called index) (path_of_acts hacts)
  rcases hcall with hnever | ⟨o, heq⟩
  · cases h.symm.trans hnever
    exact hpath
  · cases h.symm.trans heq
    exact hpath.tail (.returned index o)

theorem path_visits {sch : Schedule W} {code : Component W → Routine W}
    {row : List (Nat × Component W)} {e e' : Engine W} {os : List Outcome}
    (hmine : ∀ x ∈ row, ∀ later token, e.MayCancel s (code x.2) later token → mine later token)
    (h : Visits sch phase s code row e os e') : Path phase s mine e e' := by
  induction h with
  | nil => exact .refl
  | cons hfirst _ ih =>
    obtain ⟨hfirst', hothers⟩ := List.forall_mem_cons.1 hmine
    have hkept := (kept_handed _).call hfirst rfl
    refine (path_call hfirst' hfirst).trans (ih fun x hx later token hmay => ?_)
    exact hothers x hx later token ((mayCancel_congr hkept).1 hmay)

theorem path_breaks {sch : Schedule W} {code : Component W → Routine W} {good : Outcome → Prop}
    {row : List (Nat × Component W)} {e e' : Engine W} {index : Nat} {r : Returned}
    (hmine : ∀ x ∈ row, ∀ later token, e.MayCancel s (code x.2) later token → mine later token)
    (h : Breaks sch phase s code good row e index r e') : Path phase s mine e e' := by
  obtain ⟨hvisits, -, hcall, -⟩ := h
  obtain ⟨hbefore, hafter⟩ := List.forall_mem_append.1 hmine
  refine (path_visits hbefore hvisits).trans (path_call (fun later token hmay => ?_) hcall)
  have hkept := (kept_handed _).visits hvisits rfl
  exact hafter _ List.mem_cons_self later token ((mayCancel_congr hkept).1 hmay)

/-! ### The main stage -/

variable {sch : Schedule W} {sup : Supervisor W} {outer : Scope} {e e₁ e₂ : Engine W}

/-- Before a run no scope has been handed out: a routine can come to cancel its own one only. -/
theorem eq_of_mayCancel_fresh (he : e.Fresh) {code : Routine W} {later : Option Nat} {token : Token}
    (h : e.MayCancel s code later token) : token = s.token := by
  obtain ⟨kept, -, hclone⟩ := h
  cases kept with
  | none => exact (Option.some.inj hclone).symm
  | some phase =>
    rw [clone?, he.kept] at hclone
    cases hclone

/-- Preparing the processes, which may cancel the outer scope. -/
theorem path_prepared {os : List Outcome} (he : e.Fresh) (hvisits : Visits sch .prepare outer
    Component.prepare sup.numbered (e.publish .preRunning) os e₁) :
    Path .prepare outer (fun _ token => token = outer.token) e e₁ :=
  .head (.published .preRunning) (path_visits (fun _ _ _ _ => eq_of_mayCancel_fresh he) hvisits)

/-- Nothing has been cleared away after moves from the start of the tasks on. -/
theorem ongoing_of_path {os : List Outcome} (he : e.Fresh) (hvisits : Visits sch .prepare outer
      Component.prepare sup.numbered (e.publish .preRunning) os e₁) {e₃ : Engine W}
    (hpath : Path phase s mine (sup.start outer e₁).1 e₃) : ∀ x ∈ e₃.entries, x.event.Ongoing := by
  have hstart : Adds (fun x => x.event.Ongoing) e₁ (sup.start outer e₁).1 :=
    .of_record rfl rfl trivial
  obtain ⟨new, hnew, -, hall⟩ :=
    (((path_prepared he hvisits).adds.trans hstart).trans hpath.adds).entries
  intro x hx
  rw [hnew, entries, he.history] at hx
  rcases List.mem_append.1 hx with hx | hx
  · obtain rfl := List.mem_singleton.1 hx
    trivial
  · exact (hall x hx).1

/-- From the start of the tasks to the wait for the end. -/
theorem path_waiting (sch : Schedule W) (sup : Supervisor W) (outer : Scope) (e : Engine W) :
    Path phase s mine (sup.start outer e).1 (waiting sch sup outer e) := by
  have hwait : ReflTransGen (Acts mine) _ _ := await_acts sch
    (fun e' => some (max e'.now ((sup.start outer e).1.now + sup.startupDelay)))
    (fun _ _ h => Option.some.inj h ▸ Nat.le_max_left ..) (sup.start outer e).1
  unfold waiting announce
  dsimp only
  split
  · exact ((path_of_acts hwait).tail (.acts (.change _))).tail .announced
  · exact path_of_acts hwait

/-- Waiting for the end. -/
theorem path_await (sch : Schedule W) (outer : Scope) (e : Engine W) :
    Path phase s mine e (e.await sch (causeAt outer)).1 :=
  path_of_acts (await_acts sch _ (fun _ _ => now_le_causeAt) e)

/-- Taking the cause of the end. -/
theorem path_takeCause (sch : Schedule W) (outer : Scope) (e : Engine W) :
    Path phase s mine e (takeCause sch outer e).1 := by
  rcases takeCause_cases sch outer e with ⟨heq, -⟩ | ⟨r, rest, hreports, -, heq⟩
  · rw [heq]
  · rw [heq]
    exact .single (.received hreports)

/-- Entering the last stage and making a scope for it. -/
theorem path_closing (e : Engine W) : Path .close s mine e (closing e) :=
  (ReflTransGen.single (.published .stopping)).tail (.newScope rfl)

/-- Waiting for the tasks to end. -/
theorem path_drain (sch : Schedule W) (deadline : Nat) (e : Engine W) :
    Path phase s mine e (e.await sch (drainedAt deadline)).1 :=
  path_of_acts (await_acts sch _ (fun _ _ => now_le_drainedAt) e)

/-- A run waits for its end for ever: the processes were prepared, which led from `e` to `e₁`, and
in `e₂` nothing is left to wait for. -/
structure Stalls (sch : Schedule W) (sup : Supervisor W) (outer : Scope) (e e₁ e₂ : Engine W) :
    Prop where
  prepared : ∃ os, Visits sch .prepare outer Component.prepare sup.numbered (e.publish .preRunning)
    os e₁ ∧ ∀ o ∈ os, o = .ok
  wait : (waiting sch sup outer e₁).await sch (causeAt outer) = (e₂, false)
  run : sup.run sch outer e = (e₂, .never)

/-- A run that has entered its main stage comes to its last stage or waits for it for ever. -/
theorem stops_or_stalls (he : e.Fresh) (h : .entered .running ∈ (sup.run sch outer e).1.deeds) :
    (∃ e₁ e₂, Stops sch sup outer e e₁ e₂) ∨ ∃ e₁ e₂, Stalls sch sup outer e e₁ e₂ := by
  have hends := run_ends sch sup outer e
  generalize hrun : sup.run sch outer e = r at hends h
  cases hends with
  | hangs hbreaks | panics hbreaks =>
    exact absurd h (later_not_mem_of_breaks he hbreaks).1
  | fails hbreaks => simp [(later_not_mem_of_breaks he hbreaks).1] at h
  | @waits os e₁ e₂ hvisits hprepared hwait =>
    exact .inr ⟨e₁, e₂, ⟨os, hvisits, hprepared⟩, hwait, hrun⟩
  | @stops os e₁ e₂ hvisits hprepared hwait =>
    refine .inl ⟨e₁, e₂, ⟨os, hvisits, hprepared⟩, hwait, ?_⟩
    rw [hrun]
    exact stop_ends ..

/-- The end of a drain: what still runs is aborted, what nobody received is taken out, and the run
is over. -/
def cleared (e : Engine W) : Engine W :=
  (discardReports (abortAll e)).publish .stopped

theorem cleared_eq (e : Engine W) :
    cleared e = { e with
      stage := .stopped
      tasks := e.tasks.filter (·.outcome.isSome)
      mailbox := { e.mailbox with reports := [] }
      history := ⟨e.now, .stopped, .published .stopped⟩ ::
        ((e.mailbox.reports.map fun r => ⟨e.now, e.stage, .discarded r⟩).reverse ++
          (((e.tasks.filter (·.outcome.isNone)).map
            fun t => ⟨e.now, e.stage, .aborted t.index⟩).reverse ++ e.history)) } := by
  unfold cleared discardReports abortAll
  dsimp only
  rw [foldl_record_eq, foldl_record_eq]
  rfl

/-- What clearing away adds to the record: the tasks that have not ended are aborted, the reports in
the mailbox are taken out, and the run is over. -/
theorem entries_cleared (e : Engine W) :
    (cleared e).entries = e.entries ++
      ((e.tasks.filter (·.outcome.isNone)).map fun t => ⟨e.now, e.stage, .aborted t.index⟩) ++
      (e.mailbox.reports.map fun r => ⟨e.now, e.stage, .discarded r⟩) ++
      [⟨e.now, .stopped, .published .stopped⟩] := by
  simp [cleared_eq, entries]

/-- What a view tells after clearing away. -/
theorem filterMap_entries_cleared {β : Type} (f : Entry → Option β) (e : Engine W) :
    (cleared e).entries.filterMap f = e.entries.filterMap f ++
      ((e.tasks.filter (·.outcome.isNone)).filterMap
        fun t => f ⟨e.now, e.stage, .aborted t.index⟩) ++
      (e.mailbox.reports.filterMap fun r => f ⟨e.now, e.stage, .discarded r⟩) ++
      (f ⟨e.now, .stopped, .published .stopped⟩).toList := by
  have hlast (x : Entry) : [x].filterMap f = (f x).toList := by
    cases hx : f x <;> simp [hx]
  rw [entries_cleared, List.filterMap_append, List.filterMap_append, List.filterMap_append,
    List.filterMap_map, List.filterMap_map, hlast]
  rfl

/-- A view that sees none of what clearing away adds. -/
theorem filterMap_cleared {β : Type} (f : Entry → Option β) (e : Engine W)
    (haborted : ∀ i, f ⟨e.now, e.stage, .aborted i⟩ = none)
    (hdiscarded : ∀ r, f ⟨e.now, e.stage, .discarded r⟩ = none)
    (hpublished : f ⟨e.now, .stopped, .published .stopped⟩ = none) :
    (cleared e).entries.filterMap f = e.entries.filterMap f := by
  rw [filterMap_entries_cleared]
  simp [haborted, hdiscarded, hpublished]

theorem returns_cleared (e : Engine W) : (cleared e).returns .run = e.returns .run :=
  filterMap_cleared _ e (fun _ => rfl) (fun _ => rfl) rfl

/-- Clearing away only adds to the record. -/
theorem adds_cleared (e : Engine W) : Adds (fun _ => True) e (cleared e) :=
  (((adds_abortAll e).mono fun _ _ => trivial).trans
    ((adds_discardReports (abortAll e)).mono fun _ _ => trivial)).trans (.of_record rfl rfl trivial)

/-- A run that waits for its end for ever has made moves only. -/
theorem Stalls.moves (h : Stalls sch sup outer e e₁ e₂) :
    Path phase s mine (sup.start outer e₁).1 (sup.run sch outer e).1 := by
  have hawait : Path phase s mine _ _ := path_await sch outer (waiting sch sup outer e₁)
  rw [h.wait] at hawait
  rw [h.run]
  exact (path_waiting sch sup outer e₁).trans hawait

namespace Stops

/-- The scope in which a run that comes to its last stage shuts its processes down. -/
abbrev scope (sch : Schedule W) (sup : Supervisor W) (outer : Scope) (e₂ : Engine W) : Scope :=
  sup.closingScope (takeCause sch outer e₂).1

/-- A run that comes to its last stage has made moves only until it has taken the cause. -/
theorem moves_cause (h : Stops sch sup outer e e₁ e₂) :
    Path phase s mine (sup.start outer e₁).1 (takeCause sch outer e₂).1 := by
  have hawait : Path phase s mine _ _ := path_await sch outer (waiting sch sup outer e₁)
  rw [h.wait] at hawait
  exact ((path_waiting sch sup outer e₁).trans hawait).trans (path_takeCause sch outer e₂)

/-- A run that comes to its last stage has made moves only until it shuts its processes down. -/
theorem moves_closing (h : Stops sch sup outer e e₁ e₂) :
    Path .close s mine (sup.start outer e₁).1 (closing (takeCause sch outer e₂).1) :=
  h.moves_cause.trans (path_closing _)

section

variable (mine : Option Nat → Token → Prop) (h : Stops sch sup outer e e₁ e₂)
  (hclose : ∀ p ∈ sup.processes, ∀ later token,
    (closing (takeCause sch outer e₂).1).MayCancel (scope sch sup outer e₂) p.close later token →
      mine later token)
  (hrunning : mine none (sup.start outer e₁).2.token)

include hclose in
theorem mayCancel_close : ∀ x ∈ sup.numbered.reverse, ∀ later token,
    (closing (takeCause sch outer e₂).1).MayCancel (scope sch sup outer e₂) x.2.close later token →
      mine later token := by
  intro x hx
  obtain ⟨⟨p, index⟩, hp, rfl⟩ := List.mem_map.1 (List.mem_reverse.1 hx)
  exact hclose p (List.fst_mem_of_mem_zipIdx hp)

include h hclose hrunning in
/-- A run whose shutdowns all come back has made moves only until its drain begins. -/
theorem moves_closed {os : List Outcome} {e₃ : Engine W}
    (hvisits : Visits sch .close (scope sch sup outer e₂) Component.close sup.numbered.reverse
      (closing (takeCause sch outer e₂).1) os e₃) :
    Path .close (scope sch sup outer e₂) mine (sup.start outer e₁).1
      ((e₃.cancel (sup.start outer e₁).2.token).record .runCancelled) :=
  ((h.moves_closing.trans (path_visits (mayCancel_close mine hclose) hvisits)).tail
    (.acts (.cancel (.inl hrunning)))).tail .runCancelled

include h hclose hrunning in
/-- A run that comes to its last stage makes moves only, until it ends without a result or until
what is left over is cleared away and it returns. -/
theorem moves : ∃ e₃, Path .close (scope sch sup outer e₂) mine (sup.start outer e₁).1 e₃ ∧
    ((sup.run sch outer e).1 = e₃ ∧ (∀ result, (sup.run sch outer e).2 ≠ .returned result) ∨
      (sup.run sch outer e).1 = cleared e₃ ∧
        e₃.stage = .stopping ∧ ∃ result, (sup.run sch outer e).2 = .returned result) := by
  have hends := h.ends
  generalize sup.run sch outer e = r at hends ⊢
  cases hends with
  | unfit =>
    exact ⟨_, h.moves_cause.tail (.published .stopping), .inl ⟨rfl, by simp⟩⟩
  | hangs _ hbreaks | panics _ hbreaks =>
    exact ⟨_, h.moves_closing.trans (path_breaks (mayCancel_close mine hclose) hbreaks),
      .inl ⟨rfl, by simp⟩⟩
  | @closed os e₃ _ hvisits =>
    have hstage : ((e₃.cancel (sup.start outer e₁).2.token).record .runCancelled).stage =
        .stopping := hvisits.stage_eq
    have hdrained := (await_course sch (drainedAt ((takeCause sch outer e₂).1.now +
      sup.closeTimeout)) (fun _ _ => now_le_drainedAt) _).stage_eq.trans hstage
    exact ⟨_, (h.moves_closed mine hclose hrunning hvisits).trans (path_drain sch _ _),
      .inr ⟨rfl, hdrained, _, rfl⟩⟩

include h hclose hrunning in
/-- What the moves and the clearing away preserve still holds when a run that comes to its last
stage is over. -/
theorem preserves_run {P : Engine W → Prop}
    (hmove : ∀ e e', Moves .close (scope sch sup outer e₂) mine e e' → P e → P e')
    (hcleared : ∀ e, P e → P (cleared e)) (hstart : P (sup.start outer e₁).1) :
    P (sup.run sch outer e).1 := by
  obtain ⟨e₃, hpath, hend⟩ := h.moves mine hclose hrunning
  have hlast : P e₃ := hpath.preserves hmove hstart
  rcases hend with ⟨heq, -⟩ | ⟨heq, -⟩
  · rw [heq]
    exact hlast
  · rw [heq]
    exact hcleared _ hlast

end

end Stops

end ServiceHost.Supervisor
