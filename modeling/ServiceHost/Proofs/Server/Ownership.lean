import ServiceHost.Proofs.Server.Estate
/-!
Who removes what from a registry that several share.

A registry removes by name, whoever asks.  So it depends on what a process remembers whether its
shutdown takes out what another one has registered.  Telemetry remembers whether its meter is
registered, and removes nothing else, however preparations and shutdowns follow each other.  Metrics
pages remember nothing: they remove the version, whoever has registered it.  They remove only what
they have registered themselves as long as no metrics pages are shut down that have not been
prepared with success since their last shutdown.

The main results are `own_removed` and, for the other case, `others_removed`.
-/

namespace ServiceHost

open Engine
open Metrics (Collector Registry versionName)

/-! ### Sole collectors -/

namespace Metrics

namespace Registry

variable {r own cs : Registry} {names : List String}

/-- A registry has some collectors, and no others of their names. -/
structure Solely (r own : Registry) : Prop where
  there : ∀ c ∈ own, c ∈ r
  alone : ∀ c ∈ r, c.name ∈ own.map (·.name) → c ∈ own

namespace Solely

theorem nil (r : Registry) : r.Solely [] where
  there _ hc := by cases hc
  alone _ _ hname := by cases hname

/-- Collectors of names that are free come to a registry that has the others solely. -/
theorem append (h : r.Solely own) (hfree : ∀ c ∈ cs, r.has c.name = false) :
    Solely (r ++ cs) own where
  there c hc := List.mem_append_left _ (h.there c hc)
  alone c hc hname := by
    rcases List.mem_append.1 hc with hc | hc
    · exact h.alone c hc hname
    · obtain ⟨o, ho, hsame⟩ := List.mem_map.1 hname
      have htaken : r.has c.name = true := hsame ▸ has_of_mem (h.there o ho)
      cases htaken.symm.trans (hfree c hc)

/-- They are there solely afterwards. -/
theorem of_append (hfree : ∀ c ∈ own, r.has c.name = false) : Solely (r ++ own) own where
  there c hc := List.mem_append_right _ hc
  alone c hc hname := by
    rcases List.mem_append.1 hc with hc | hc
    · obtain ⟨o, ho, hsame⟩ := List.mem_map.1 hname
      have htaken : r.has o.name = true := hsame ▸ has_of_mem hc
      cases htaken.symm.trans (hfree o ho)
    · exact hc

/-- Removing other names makes no difference. -/
theorem removeAll (h : r.Solely own) (hnames : ∀ c ∈ own, c.name ∉ names) :
    Solely (Registry.removeAll names r).1 own where
  there c hc := mem_removeAll (h.there c hc) (hnames c hc)
  alone c hc := h.alone c (mem_of_mem_removeAll hc)

/-- Different collectors that are both there solely have different names. -/
theorem disjoint (h : r.Solely own) (h' : r.Solely cs) (hapart : ∀ c ∈ own, c ∉ cs) :
    ∀ c ∈ own, c.name ∉ cs.map (·.name) :=
  fun c hc hname => hapart c hc (h'.alone c (h.there c hc) hname)

end Solely

end Registry

end Metrics

namespace Estate

/-! ### Lives -/

/-- Each registrant has a meter of its own, and no telemetry remembers a registration so far.  What
the registry has already does not matter. -/
structure Housed (all : List Registrant) (w : Estate) : Prop where
  apart : all.Pairwise fun t u => ∀ place ∈ t.meter?, place ∉ u.meter?
  meters : ∀ t ∈ all, t.MeterIn w.metrics
  counts : ∀ t ∈ all, t.Counts
  unregistered : ∀ k, (w.telemetry k).registered = false

/-- A call that came back: whose and of which phase it was, how it ended, and what the registry had
before and after it. -/
structure Call where
  index : Nat
  phase : Phase
  outcome : Outcome
  before : Registry
  after : Registry

/-- The record of a call that led from one world to another. -/
def Call.between (index : Nat) (phase : Phase) (outcome : Outcome) (w w' : Estate) : Call where
  index := index
  phase := phase
  outcome := outcome
  before := w.metrics.registry
  after := w'.metrics.registry

/-- The call has added a collector. -/
def Call.Adds (r : Call) (c : Collector) : Prop :=
  c ∉ r.before ∧ c ∈ r.after

instance (r : Call) (c : Collector) : Decidable (r.Adds c) :=
  inferInstanceAs (Decidable (_ ∧ _))

/-- What some registrants go through, with their calls so far, the latest first.  They are prepared
and shut down in any order, whatever the calls return, and in between they run, and anything else
goes on in the background. -/
inductive Life (all : List Registrant) : List Call → Engine Estate → Prop
  | begin {e : Engine Estate} (housed : Housed all e.world) (idle : e.tasks = []) : Life all [] e
  | prepare {log : List Call} {e e' : Engine Estate} {k : Nat} {t : Registrant} {o : Outcome}
      (life : Life all log e) (there : all[k]? = some t) (sch : Schedule Estate) (scope : Scope)
      (returns : e.call sch .prepare k scope (t.component k).prepare = (e', .outcome o)) :
      Life all (.between k .prepare o e.world e'.world :: log) e'
  | close {log : List Call} {e e' : Engine Estate} {k : Nat} {t : Registrant} {o : Outcome}
      (life : Life all log e) (there : all[k]? = some t) (sch : Schedule Estate) (scope : Scope)
      (returns : e.call sch .close k scope (t.component k).close = (e', .outcome o)) :
      Life all (.between k .close o e.world e'.world :: log) e'
  | run {log : List Call} {e : Engine Estate} {k : Nat} {t : Registrant} (life : Life all log e)
      (there : all[k]? = some t) (scope : Scope) :
      Life all log (e.spawn k scope (t.component k).run).1
  | later {log : List Call} {e e' : Engine Estate} (life : Life all log e) (stirs : Stirs e e') :
      Life all log e'

/-- The preparations of a registrant since its last shutdown, the latest first. -/
def since (log : List Call) (k : Nat) : List Call :=
  (log.filter (·.index = k)).takeWhile (·.phase = .prepare)

/-- A registrant has been prepared with success since its last shutdown. -/
def Ready (log : List Call) (k : Nat) : Prop :=
  ∃ r ∈ since log k, r.outcome = .ok

/-- Its latest call was a preparation that succeeded. -/
def ReadyLast (log : List Call) (k : Nat) : Prop :=
  ∃ r ∈ (since log k).head?, r.outcome = .ok

/-- A registrant has registered a collector since its last shutdown. -/
def Registered (log : List Call) (k : Nat) (c : Collector) : Prop :=
  ∃ r ∈ since log k, r.Adds c

/-- Its latest call was a preparation that registered the collector. -/
def RegisteredLast (log : List Call) (k : Nat) (c : Collector) : Prop :=
  ∃ r ∈ (since log k).head?, r.Adds c

instance (log : List Call) (k : Nat) : Decidable (Ready log k) :=
  inferInstanceAs (Decidable (∃ r ∈ since log k, r.outcome = .ok))

instance (log : List Call) (k : Nat) : Decidable (ReadyLast log k) :=
  inferInstanceAs (Decidable (∃ r ∈ (since log k).head?, r.outcome = .ok))

instance (log : List Call) (k : Nat) (c : Collector) : Decidable (Registered log k c) :=
  inferInstanceAs (Decidable (∃ r ∈ since log k, r.Adds c))

instance (log : List Call) (k : Nat) (c : Collector) : Decidable (RegisteredLast log k c) :=
  inferInstanceAs (Decidable (∃ r ∈ (since log k).head?, r.Adds c))

/-- Metrics pages were only shut down when they had been prepared with success before. -/
def Orderly (all : List Registrant) : List Call → Prop
  | [] => True
  | r :: log => Orderly all log ∧
    (r.phase = .close → (all[r.index]?).any Registrant.isPages = true → Ready log r.index)

section Log

variable {log : List Call} {r : Call} {k : Nat}

theorem since_of_other (h : r.index ≠ k) : since (r :: log) k = since log k := by
  simp [since, h]

@[simp] theorem since_prepare (o : Outcome) (w w' : Estate) :
    since (.between k .prepare o w w' :: log) k = .between k .prepare o w w' :: since log k := by
  simp [since, Call.between]

@[simp] theorem since_close (o : Outcome) (w w' : Estate) :
    since (.between k .close o w w' :: log) k = [] := by
  simp [since, Call.between]

theorem ReadyLast.ready (h : ReadyLast log k) : Ready log k := by
  obtain ⟨r, hr, hok⟩ := h
  exact ⟨r, List.mem_of_mem_head? hr, hok⟩

end Log

/-! ### Who has registered what -/

section Owners

variable {all : List Registrant} {log : List Call} {r : Call} {e e' : Engine Estate}
  {w w' : Estate} {j k : Nat} {t u : Registrant} {o : Outcome}

/-- The meters of different registrants have no collectors in common. -/
theorem Housed.disjoint (h : Housed all w) (ht : all[j]? = some t) (hu : all[k]? = some u)
    (hjk : j ≠ k) : ∀ c ∈ t.collectors, c ∉ u.collectors := by
  intro c hc hc'
  have hplace := Registrant.meter?_of_mem hc
  have hplace' := Registrant.meter?_of_mem hc'
  obtain ⟨hj, rfl⟩ := List.getElem?_eq_some_iff.1 ht
  obtain ⟨hk, rfl⟩ := List.getElem?_eq_some_iff.1 hu
  have hpairs := List.pairwise_iff_getElem.1 h.apart
  rcases Nat.lt_or_gt_of_ne hjk with hlt | hlt
  · exact hpairs j k hj hk hlt _ hplace hplace'
  · exact hpairs k j hk hj hlt _ hplace' hplace

/-- The meter of a registrant should be registered.  Telemetry remembers that it is; metrics pages
have been prepared with success since their last shutdown, and none were shut down without that. -/
structure Registrant.Stands (all : List Registrant) (log : List Call) (w : Estate) (k : Nat)
    (t : Registrant) : Prop where
  prepared : t.isPages = true → Orderly all log ∧ Ready log k
  remembers : t.isPages = false → (w.telemetry k).registered = true

/-- The meter of a registrant is registered, and it has registered it itself. -/
structure Owns (log : List Call) (w : Estate) (k : Nat) (t : Registrant) : Prop where
  solely : w.metrics.registry.Solely t.collectors
  registered : ∀ c ∈ t.collectors, Registered log k c
  latest : ReadyLast log k → ∀ c ∈ t.collectors, RegisteredLast log k c

/-- Where there is no meter there is nothing to register. -/
theorem owns_of_nil (h : t.collectors = []) : Owns log w k t where
  solely := h ▸ .nil _
  registered c hc := by
    rw [h] at hc
    cases hc
  latest _ c hc := by
    rw [h] at hc
    cases hc

/-- Calls of others do not change what a registrant has done. -/
theorem Owns.of_other (h : Owns log w k t) (hindex : r.index ≠ k)
    (hsolely : w'.metrics.registry.Solely t.collectors) : Owns (r :: log) w' k t := by
  have hsame : since (r :: log) k = since log k := since_of_other hindex
  constructor
  · exact hsolely
  · unfold Registered
    rw [hsame]
    exact h.registered
  · unfold ReadyLast RegisteredLast
    rw [hsame]
    exact h.latest

/-- Who has its meter registered after the call of another one had it before. -/
theorem Registrant.Stands.of_other (h : t.Stands all (r :: log) w' k) (hindex : r.index ≠ k)
    (hflag : (w'.telemetry k).registered = (w.telemetry k).registered) : t.Stands all log w k := by
  constructor
  · intro hpages
    obtain ⟨⟨horderly, -⟩, hready⟩ := h.prepared hpages
    unfold Ready at hready
    rw [since_of_other hindex] at hready
    exact ⟨horderly, hready⟩
  · intro hpages
    exact hflag ▸ h.remembers hpages

/-- So did who fails to prepare. -/
theorem Registrant.Stands.of_failed (h : t.Stands all (.between k .prepare o w w' :: log) w' k)
    (hfails : o ≠ .ok) (hflag : (w'.telemetry k).registered = (w.telemetry k).registered) :
    t.Stands all log w k := by
  constructor
  · intro hpages
    obtain ⟨⟨horderly, -⟩, r, hr, hok⟩ := h.prepared hpages
    rw [since_prepare] at hr
    rcases List.mem_cons.1 hr with rfl | hr
    · exact absurd hok hfails
    · exact ⟨horderly, r, hr, hok⟩
  · intro hpages
    exact hflag ▸ h.remembers hpages

/-- Who has just added all its collectors owns them. -/
theorem owns_of_added (hfree : ∀ c ∈ t.collectors, w.metrics.registry.has c.name = false)
    (heq : w'.metrics.registry = w.metrics.registry ++ t.collectors) :
    Owns (.between k .prepare o w w' :: log) w' k t := by
  have hadds : ∀ c ∈ t.collectors, (Call.between k .prepare o w w').Adds c := by
    intro c hc
    constructor
    · intro hmem
      cases (Metrics.Registry.has_of_mem hmem).symm.trans (hfree c hc)
    · show c ∈ w'.metrics.registry
      rw [heq]
      exact List.mem_append_right _ hc
  constructor
  · rw [heq]
    exact .of_append hfree
  · intro c hc
    refine ⟨_, ?_, hadds c hc⟩
    rw [since_prepare]
    exact List.mem_cons_self
  · intro _ c hc
    refine ⟨_, ?_, hadds c hc⟩
    rw [since_prepare]
    rfl

/-- Who fails to prepare still owns what it had. -/
theorem Owns.of_failed (h : Owns log w k t) (hfails : o ≠ .ok)
    (hsolely : w'.metrics.registry.Solely t.collectors) :
    Owns (.between k .prepare o w w' :: log) w' k t := by
  constructor
  · exact hsolely
  · intro c hc
    obtain ⟨r, hr, hadds⟩ := h.registered c hc
    refine ⟨r, ?_, hadds⟩
    rw [since_prepare]
    exact List.mem_cons_of_mem _ hr
  · rintro ⟨r, hr, hok⟩
    rw [since_prepare] at hr
    obtain rfl := Option.some.inj hr
    exact absurd hok hfails

/-- Who is prepared, and then should have its meter registered, owns it. -/
theorem Registrant.Prepares.owns (h : t.Prepares k w o w')
    (hbefore : t.Stands all log w k → Owns log w k t)
    (hstands : t.Stands all (.between k .prepare o w w' :: log) w' k) :
    Owns (.between k .prepare o w w' :: log) w' k t := by
  obtain ⟨n, heq, hfree, hall | ⟨hfails, hflag⟩⟩ := h.adds
  · rw [List.take_of_length_le hall] at heq hfree
    exact owns_of_added hfree heq
  · have howns := hbefore (hstands.of_failed hfails hflag)
    exact howns.of_failed hfails (heq ▸ howns.solely.append hfree)

/-- What holds at every moment of a life. -/
structure Sound (all : List Registrant) (log : List Call) (e : Engine Estate) : Prop where
  respects : e.Respects Steady
  disjoint : ∀ (j k : Nat) (t u : Registrant), all[j]? = some t → all[k]? = some u → j ≠ k →
    ∀ c ∈ t.collectors, c ∉ u.collectors
  counts : ∀ t ∈ all, t.Counts
  meters : ∀ t ∈ all, t.MeterIn e.world.metrics
  owns : ∀ k t, all[k]? = some t → t.Stands all log e.world k → Owns log e.world k t

theorem sound_begin (housed : Housed all e.world) (idle : e.tasks = []) : Sound all [] e where
  respects := by simp [Respects, idle]
  disjoint _ _ _ _ := housed.disjoint
  counts := housed.counts
  meters := housed.meters
  owns k t _ hstands := by
    cases hpages : t.isPages with
    | true =>
      obtain ⟨-, r, hr, -⟩ := hstands.prepared hpages
      cases hr
    | false => cases (hstands.remembers hpages).symm.trans (housed.unregistered k)

namespace Sound

/-- What happens besides the calls makes no difference. -/
theorem of_steady (h : Sound all log e) (hrespects : e'.Respects Steady)
    (hsteady : e.world.Steady e'.world) : Sound all log e' where
  respects := hrespects
  disjoint := h.disjoint
  counts := h.counts
  meters := hsteady.metrics.symm ▸ h.meters
  owns k t ht hstands := by
    have hbefore : t.Stands all log e.world k :=
      ⟨hstands.prepared, fun hpages => hsteady.flags k ▸ hstands.remembers hpages⟩
    obtain ⟨hsolely, hregistered, hlatest⟩ := h.owns k t ht hbefore
    exact ⟨hsteady.metrics.symm ▸ hsolely, hregistered, hlatest⟩

theorem prepare (h : Sound all log e) (ht : all[k]? = some t) {sch : Schedule Estate}
    {scope : Scope}
    (hcall : e.call sch .prepare k scope (t.component k).prepare = (e', .outcome o)) :
    Sound all (.between k .prepare o e.world e'.world :: log) e' := by
  have hmem := List.mem_of_getElem? ht
  obtain ⟨hrespects, hprepares⟩ := call_leads hcall h.respects
    (Registrant.leads_prepare (h.counts t hmem) (h.meters t hmem))
  refine ⟨hrespects, h.disjoint, h.counts,
    fun u hu => (h.meters u hu).of_keeps hprepares.meters, ?_⟩
  intro j u hu hstands
  by_cases hj : j = k
  · obtain rfl := hj
    obtain rfl := Option.some.inj (ht.symm.trans hu)
    exact hprepares.owns (h.owns j t ht) hstands
  · have howns := h.owns j u hu (hstands.of_other (Ne.symm hj) (hprepares.others j hj))
    obtain ⟨n, heq, hfree, -⟩ := hprepares.adds
    exact howns.of_other (Ne.symm hj) (heq ▸ howns.solely.append hfree)

/-- What a shutdown removes has other names than what the others own. -/
theorem names_disjoint (h : Sound all log e) (ht : all[k]? = some t) (hu : all[j]? = some u)
    (hjk : j ≠ k) (howns : Owns log e.world j u)
    (hflag : t.isPages = false → (e.world.telemetry k).registered = true)
    (hready : t.isPages = true → u.isPages = true → Orderly all log ∧ Ready log k) :
    ∀ c ∈ u.collectors, c.name ∉ t.collectors.map (·.name) := by
  have hboth (hstands : t.Stands all log e.world k) :
      ∀ c ∈ u.collectors, c.name ∉ t.collectors.map (·.name) :=
    howns.solely.disjoint (h.owns k t ht hstands).solely (h.disjoint j k u t hu ht hjk)
  cases hpages : t.isPages with
  | false => exact hboth ⟨fun hnot => absurd (hpages.symm.trans hnot) Bool.false_ne_true, hflag⟩
  | true =>
    cases hpages' : u.isPages with
    | true =>
      exact hboth ⟨fun _ => hready hpages hpages', fun hnot => by cases hpages.symm.trans hnot⟩
    | false =>
      -- the version is none of the names of telemetry
      intro c hc hname
      have hversion := Registrant.name_ne_version hpages' hc
      cases t with
      | pages s traffic => exact hversion (List.mem_singleton.1 hname)
      | telemetry => cases hpages

theorem close (h : Sound all log e) (ht : all[k]? = some t) {sch : Schedule Estate}
    {scope : Scope}
    (hcall : e.call sch .close k scope (t.component k).close = (e', .outcome o)) :
    t.Closes k e.world e'.world ∧
      Sound all (.between k .close o e.world e'.world :: log) e' := by
  obtain ⟨hrespects, hcloses⟩ := call_leads hcall h.respects
    (Registrant.leads_close (h.meters t (List.mem_of_getElem? ht)))
  have hmeters : e.world.metrics.Keeps e'.world.metrics :=
    fun place m hm => ⟨m, hcloses.meters.symm ▸ hm, rfl⟩
  refine ⟨hcloses, hrespects, h.disjoint, h.counts, fun u hu => (h.meters u hu).of_keeps hmeters,
    ?_⟩
  intro j u hu hstands
  by_cases hj : j = k
  · -- after its shutdown only telemetry without a meter can seem to have registered it
    obtain rfl := hj
    obtain rfl := Option.some.inj (ht.symm.trans hu)
    cases hpages : t.isPages with
    | true =>
      obtain ⟨-, r, hr, -⟩ := hstands.prepared hpages
      rw [since_close] at hr
      cases hr
    | false => exact owns_of_nil (hcloses.forgets hpages (hstands.remembers hpages))
  · have howns := h.owns j u hu (hstands.of_other (Ne.symm hj) (hcloses.others j hj))
    refine howns.of_other (Ne.symm hj) ?_
    rcases hcloses.removes with ⟨heq, -⟩ | ⟨hflag, heq⟩
    · rw [heq]
      exact howns.solely
    · rw [heq]
      apply howns.solely.removeAll
      apply h.names_disjoint ht hu hj howns hflag
      intro hpages hpages'
      obtain ⟨⟨horderly, hready⟩, -⟩ := hstands.prepared hpages'
      have hpagesAt : (all[k]?).any Registrant.isPages = true := by
        rw [ht]
        exact hpages
      exact ⟨horderly, hready rfl hpagesAt⟩

end Sound

/-- Every life is sound. -/
theorem Life.sound (h : Life all log e) : Sound all log e := by
  induction h with
  | begin housed idle => exact sound_begin housed idle
  | prepare _ there _ _ returns ih => exact ih.prepare there returns
  | close _ there _ _ returns ih => exact (ih.close there returns).2
  | @run log e k t _ _ scope ih =>
    have hrespects : (e.spawn k scope (t.component k).run).1.Respects Steady := by
      intro task htask
      rcases List.mem_append.1 htask with htask | htask
      · exact ih.respects task htask
      · obtain rfl := List.mem_singleton.1 htask
        exact t.respects_run k
    exact ih.of_steady hrespects (refl e.world)
  | later _ stirs ih =>
    obtain ⟨hrespects, hsteady⟩ := stirs.respected ih.respects
    exact ih.of_steady hrespects hsteady

/-! ### What a shutdown removes -/

/-- Preparing comes back, and so does shutting down. -/
theorem Registrant.comes_back (t : Registrant) (k : Nat) (sch : Schedule Estate) (scope : Scope)
    (e : Engine Estate) :
    (∃ e' o, e.call sch .prepare k scope (t.component k).prepare = (e', .outcome o)) ∧
      ∃ e' o, e.call sch .close k scope (t.component k).close = (e', .outcome o) := by
  have hreturns {phase : Phase} {code : Routine Estate}
      (hlimit : ∃ d, code.limit? (scope.remaining e.now) = some d) :
      ∃ e' o, e.call sch phase k scope code = (e', .outcome o) := by
    obtain ⟨d, hd⟩ := hlimit
    obtain ⟨e', o, hcall, -⟩ := call_within hd sch phase k
    exact ⟨e', o, hcall⟩
  cases t with
  | pages s traffic =>
    refine ⟨hreturns ⟨0, rfl⟩, hreturns ?_⟩
    have hbudget :
        ∃ d, Listener.budget (some s.closeTimeout) (scope.remaining e.now) = some d := by
      cases scope.remaining e.now <;> exact ⟨_, rfl⟩
    rw [Registrant.close_pages, Listener.limit?_stopping]
    exact hbudget
  | telemetry s coloured closings =>
    exact ⟨hreturns ⟨0, rfl⟩,
      hreturns (Telemetry.Service.exists_limit?_close s (places k) closings _)⟩

/-- **A shutdown removes what its process has registered itself**, at every moment of every life.
A shutdown of telemetry only removes collectors that a preparation of it has added since its last
shutdown; if its latest call was a preparation that succeeded, it was that one.  A shutdown of
metrics pages removes the version, whoever has added it.  As long as no metrics pages are shut down
that have not been prepared with success since their last shutdown, the same is true of them as of
telemetry.  Preparing and shutting down always come back. -/
theorem own_removed (hlife : Life all log e) (ht : all[k]? = some t) (sch : Schedule Estate)
    (scope : Scope) :
    (∃ e' o, e.call sch .prepare k scope (t.component k).prepare = (e', .outcome o)) ∧
    ∃ e' o, e.call sch .close k scope (t.component k).close = (e', .outcome o) ∧
      (t.isPages = true →
        e'.world.metrics.registry = e.world.metrics.registry.without [versionName]) ∧
      ∀ c ∈ e.world.metrics.registry, c ∉ e'.world.metrics.registry →
        (t.isPages = true → Orderly all log) →
          ((t.isPages = true → Ready log k) → Registered log k c) ∧
          (ReadyLast log k → RegisteredLast log k c) := by
  have hsound := hlife.sound
  obtain ⟨hprepares, e', o, hcall⟩ := t.comes_back k sch scope e
  obtain ⟨hcloses, -⟩ := hsound.close ht hcall
  refine ⟨hprepares, e', o, hcall, ?_, ?_⟩
  · intro hpages
    rcases hcloses.removes with ⟨-, hnot⟩ | ⟨-, heq⟩
    · cases hpages.symm.trans hnot
    · cases t with
      | pages s traffic => exact heq.trans (Metrics.Registry.removeAll_singleton _ _)
      | telemetry => cases hpages
  · intro c hthere hgone horderly
    rcases hcloses.removes with ⟨heq, -⟩ | ⟨hflag, heq⟩
    · exact absurd (heq ▸ hthere) hgone
    rw [heq] at hgone
    -- what is removed has a name of the meter, and whoever owns that has no others of its names
    have hname : c.name ∈ t.collectors.map (·.name) := by
      by_contra hother
      exact hgone (Metrics.Registry.mem_removeAll hthere hother)
    have howns (hready : t.isPages = true → Ready log k) : Owns log e.world k t :=
      hsound.owns k t ht ⟨fun hpages => ⟨horderly hpages, hready hpages⟩, hflag⟩
    constructor
    · intro hready
      have howns := howns hready
      exact howns.registered c (howns.solely.alone c hthere hname)
    · intro hlast
      have howns := howns fun _ => hlast.ready
      exact howns.latest hlast c (howns.solely.alone c hthere hname)

deriving instance DecidableEq for Engine.Returned

/-- The engine after a preparation in the usual order. -/
def Registrant.prepared (t : Registrant) (k : Nat) (e : Engine Estate) : Engine Estate :=
  (e.call .usual .prepare k ⟨[0], none⟩ (t.component k).prepare).1

/-- A preparation in the usual order that ends in a certain way. -/
theorem Life.prepared (h : Life all log e) (ht : all[k]? = some t)
    (ho : (e.call .usual .prepare k ⟨[0], none⟩ (t.component k).prepare).2 = .outcome o) :
    Life all (.between k .prepare o e.world (t.prepared k e).world :: log) (t.prepared k e) :=
  h.prepare ht .usual ⟨[0], none⟩ (Prod.ext rfl ho)

/-- Metrics pages whose version is at a place. -/
def pagesOf (version : Nat) : Registrant :=
  .pages { address := "127.0.0.1:0", closeTimeout := 5, version := version } {}

/-- Telemetry that counts calls with the second meter. -/
def countingCalls : Registrant :=
  .telemetry { settings := { telemetry := { metrics := { enabled := true } } }, meter := some 1 }
    false {}

/-- The meters of metrics pages and of telemetry, before they are registered. -/
def pagesAndCalls : Engine Estate where
  world := { metrics := { meters := [.version { version := "1" }, .calls { namesp := "app" }] } }

theorem housed_pagesAndCalls : Housed [pagesOf 0, countingCalls] pagesAndCalls.world where
  apart := by simp [pagesOf, countingCalls, Registrant.meter?]
  meters := by
    intro t ht place hplace
    rcases List.mem_pair.1 ht with rfl | rfl <;> cases hplace <;> exact ⟨_, rfl, rfl⟩
  counts := by
    intro t ht
    rcases List.mem_pair.1 ht with rfl | rfl
    · trivial
    · exact rfl
  unregistered _ := rfl

/-- Metrics pages take out the version, and telemetry both collectors that it has registered. -/
theorem own_removed_side_by_side :
    ∃ log e, Life [pagesOf 0, countingCalls] log e ∧
      (∃ e' o, e.call .usual .close 0 ⟨[0], none⟩ ((pagesOf 0).component 0).close =
          (e', .outcome o) ∧
        (∀ c ∈ e.world.metrics.registry, c ∉ e'.world.metrics.registry → RegisteredLast log 0 c) ∧
        e'.world.metrics.registry.map (·.meter) = [1, 1]) ∧
      ∃ e' o, e.call .usual .close 1 ⟨[0], none⟩ (countingCalls.component 1).close =
          (e', .outcome o) ∧
        (∀ c ∈ e.world.metrics.registry, c ∉ e'.world.metrics.registry → RegisteredLast log 1 c) ∧
        e'.world.metrics.registry.map (·.meter) = [0] := by
  have hpages := (Life.begin housed_pagesAndCalls rfl).prepared (k := 0) (o := .ok) rfl
    (by decide +kernel)
  have hlife := hpages.prepared (k := 1) (o := .ok) rfl (by decide +kernel)
  refine ⟨_, _, hlife, ?_, ?_⟩
  · obtain ⟨-, e', o, hcall, -, hremoved⟩ := own_removed hlife (k := 0) rfl .usual ⟨[0], none⟩
    refine ⟨e', o, hcall, fun c hthere hgone => ?_, ?_⟩
    · refine (hremoved c hthere hgone fun _ => ?_).2 (by decide +kernel)
      simp [Orderly, Call.between]
    · rw [show e' = _ from (congrArg Prod.fst hcall).symm]
      decide +kernel
  · obtain ⟨-, e', o, hcall, -, hremoved⟩ := own_removed hlife (k := 1) rfl .usual ⟨[0], none⟩
    refine ⟨e', o, hcall, fun c hthere hgone => ?_, ?_⟩
    · refine (hremoved c hthere hgone fun hpages => ?_).2 (by decide +kernel)
      cases hpages
    · rw [show e' = _ from (congrArg Prod.fst hcall).symm]
      decide +kernel

/-- The meters of two metrics pages, before they are registered. -/
def twoPages : Engine Estate where
  world := { metrics := { meters := [.version { version := "1" }, .version { version := "2" }] } }

theorem housed_twoPages : Housed [pagesOf 0, pagesOf 1] twoPages.world where
  apart := by simp [pagesOf, Registrant.meter?]
  meters := by
    intro t ht place hplace
    rcases List.mem_pair.1 ht with rfl | rfl <;> cases hplace <;> exact ⟨_, rfl, rfl⟩
  counts := by
    intro t ht
    rcases List.mem_pair.1 ht with rfl | rfl <;> trivial
  unregistered _ := rfl

/-- Metrics pages remove the version that others have registered, when they have been refused and
when they were never prepared.  Those that are prepared twice remove what the second preparation was
refused. -/
theorem others_removed :
    let version : Collector := ⟨versionName, 0, .version⟩
    let removes (e : Engine Estate) (k : Nat) (t : Registrant) : Prop :=
      ∃ e' o, e.call .usual .close k ⟨[0], none⟩ (t.component k).close = (e', .outcome o) ∧
        version ∈ e.world.metrics.registry ∧ version ∉ e'.world.metrics.registry
    (∃ log e, Life [pagesOf 0, pagesOf 1] log e ∧
      log.map (·.outcome) = [.failed (.host (.metrics .duplicate)), .ok] ∧
      Registered log 0 version ∧ ¬ Registered log 1 version ∧ removes e 1 (pagesOf 1)) ∧
    (∃ log e, Life [pagesOf 0, pagesOf 1] log e ∧ since log 1 = [] ∧
      Registered log 0 version ∧ ¬ Registered log 1 version ∧ removes e 1 (pagesOf 1)) ∧
    ∃ log e, Life [pagesOf 0, pagesOf 1] log e ∧
      log.map (·.outcome) = [.failed (.host (.metrics .duplicate)), .ok] ∧
      ¬ RegisteredLast log 0 version ∧ removes e 0 (pagesOf 0) := by
  dsimp only
  have hfirst := (Life.begin housed_twoPages rfl).prepared (k := 0) (o := .ok) rfl
    (by decide +kernel)
  have hrefused := hfirst.prepared (k := 1) (o := .failed (.host (.metrics .duplicate))) rfl
    (by decide +kernel)
  have hagain := hfirst.prepared (k := 0) (o := .failed (.host (.metrics .duplicate))) rfl
    (by decide +kernel)
  -- a shutdown comes back, and what it leaves can be computed
  have hremoves {e : Engine Estate} {k : Nat} {t : Registrant}
      (hthere : ⟨versionName, 0, .version⟩ ∈ e.world.metrics.registry)
      (hgone : ⟨versionName, 0, .version⟩ ∉ (e.call .usual .close k ⟨[0], none⟩
        (t.component k).close).1.world.metrics.registry) :
      ∃ e' o, e.call .usual .close k ⟨[0], none⟩ (t.component k).close = (e', .outcome o) ∧
        (⟨versionName, 0, .version⟩ : Collector) ∈ e.world.metrics.registry ∧
        (⟨versionName, 0, .version⟩ : Collector) ∉ e'.world.metrics.registry := by
    obtain ⟨-, e', o, hcall⟩ := t.comes_back k .usual ⟨[0], none⟩ e
    rw [hcall] at hgone
    exact ⟨e', o, hcall, hthere, hgone⟩
  refine ⟨⟨_, _, hrefused, rfl, by decide +kernel, by decide +kernel, ?_⟩,
    ⟨_, _, hfirst, rfl, by decide +kernel, by decide +kernel, ?_⟩,
    _, _, hagain, rfl, by decide +kernel, ?_⟩
  all_goals exact hremoves (by decide +kernel) (by decide +kernel)

end Owners

end Estate

end ServiceHost
