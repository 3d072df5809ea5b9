import Mathlib.Data.List.Nodup
import ServiceHost.Metrics.Registry
/-!
What a registry shows while meters are registered and removed again.

Some names of a registry are spared by everyone but the one whose meters we follow.  Of these names
the registry shows what it showed at first, and what has been registered since (`Registry.Shows`).
Registering a meter adds its collectors, and removing it takes them out again.  The removal stops at
the first name that is missing.  A name is only missing if others did not spare it, so what stays
stands behind such a one (`Registry.Shows.removeAll`).  `State.Holds` says the same of meters that
are registered one after the other, and `Left` of what stays when they are removed again in reverse
order.
-/

namespace ServiceHost.Metrics

/-! ### Names -/

/-- A qualified name ends as the name does. -/
theorem CallMeter.getLast?_qualified (namesp : String) {name : String} (h : name.toList ≠ []) :
    (qualified namesp name).toList.getLast? = name.toList.getLast? := by
  unfold qualified
  split
  · rfl
  · rw [String.toList_append, List.getLast?_append, List.getLast?_eq_some_getLast h]
    rfl

@[simp] theorem CallMeter.getLast?_requestsName (namesp : String) :
    (requestsName namesp).toList.getLast? = some 'l' :=
  getLast?_qualified namesp (by decide)

@[simp] theorem CallMeter.getLast?_durationsName (namesp : String) :
    (durationsName namesp).toList.getLast? = some 's' :=
  getLast?_qualified namesp (by decide)

/-- The names of all meters are different, whatever the common name is. -/
theorem names_nodup (namesp : String) :
    [versionName, CallMeter.requestsName namesp, CallMeter.durationsName namesp].Nodup := by
  -- they end with different characters
  refine List.Nodup.of_map (fun name : String => name.toList.getLast?) ?_
  rw [List.map_cons, List.map_cons, List.map_singleton, CallMeter.getLast?_requestsName,
    CallMeter.getLast?_durationsName]
  decide

/-- A new meter has its common name, and no samples. -/
theorem CallMeter.eq_of_create {namesp : String} {m : CallMeter} (h : create namesp = .ok m) :
    m = { namesp := namesp } := by
  unfold create at h
  split at h
  · cases h
  · split at h
    · cases h
    · exact (Except.ok.inj h).symm

namespace Registry

variable {spared : String → Prop} {base own cs r r' : Registry} {c o : Collector}

/-! ### Adding and removing collectors -/

/-- Collectors that are all added stand at the end, and had names that were not taken. -/
theorem eq_of_addAll (h : addAll cs r = (r', none)) :
    r' = r ++ cs ∧ ∀ c ∈ cs, r.has c.name = false := by
  induction cs generalizing r with
  | nil =>
    obtain ⟨rfl, -⟩ := Prod.mk.inj h
    simp
  | cons c cs ih =>
    unfold addAll at h
    split at h
    next r₁ hadd =>
      have hnew := has_of_add hadd
      unfold add at hadd
      split at hadd
      next => cases hadd
      next hfree =>
        obtain rfl := Except.ok.inj hadd
        obtain ⟨rfl, hnames⟩ := ih h
        refine ⟨by simp, List.forall_mem_cons.2 ⟨by simpa using hfree, fun c' hc' => ?_⟩⟩
        have hfree' := hnames c' hc'
        rw [hnew, Bool.or_eq_false_iff] at hfree'
        exact hfree'.1
    next => cases h

/-- When a collector is refused, those before it stand at the end, and had names that were not
taken. -/
theorem eq_of_addAll_refused {fault : MetricFault} (h : addAll cs r = (r', some fault)) :
    ∃ n < cs.length, r' = r ++ cs.take n ∧ ∀ c ∈ cs.take n, r.has c.name = false := by
  induction cs generalizing r with
  | nil => cases h
  | cons c cs ih =>
    unfold addAll at h
    split at h
    next r₁ hadd =>
      obtain ⟨n, hn, rfl, hnames⟩ := ih h
      have hone : addAll [c] r = (r₁, none) := by
        rw [addAll, hadd]
        rfl
      obtain ⟨rfl, hfree⟩ := eq_of_addAll hone
      refine ⟨n + 1, Nat.succ_lt_succ hn, by simp, ?_⟩
      rw [List.take_succ_cons, List.forall_mem_cons]
      refine ⟨hfree c List.mem_cons_self, fun c' hc' => ?_⟩
      have hfree' := hnames c' hc'
      rw [has_of_add hadd, Bool.or_eq_false_iff] at hfree'
      exact hfree'.1
    next =>
      obtain ⟨rfl, -⟩ := Prod.mk.inj h
      exact ⟨0, Nat.succ_pos _, by simp, by simp⟩

theorem mem_of_remove {gone : String} (h : r.remove gone = .ok r') :
    c ∈ r' ↔ c ∈ r ∧ c.name ≠ gone := by
  unfold remove at h
  split at h
  · obtain rfl := Except.ok.inj h
    simp
  · cases h

section

variable {names : List String}

theorem mem_of_mem_removeAll (h : c ∈ (removeAll names r).1) : c ∈ r := by
  induction names generalizing r with
  | nil => exact h
  | cons name names ih =>
    rw [removeAll] at h
    split at h
    next r₁ hremove => exact ((mem_of_remove hremove).1 (ih h)).1
    next => exact h

/-- Collectors of other names are not removed. -/
theorem mem_removeAll (h : c ∈ r) (hname : c.name ∉ names) :
    c ∈ (removeAll names r).1 := by
  induction names generalizing r with
  | nil => exact h
  | cons name names ih =>
    rw [List.mem_cons, not_or] at hname
    rw [removeAll]
    split
    next r₁ hremove => exact ih ((mem_of_remove hremove).2 ⟨h, hname.1⟩) hname.2
    next => exact h

end

/-! ### What is shown -/

/-- Of the names that are spared, a registry shows what it showed at first and what has been
registered since, and these have different names. -/
structure Shows (spared : String → Prop) (base own r : Registry) : Prop where
  mem_iff : ∀ c : Collector, spared c.name → (c ∈ r ↔ c ∈ base ∨ c ∈ own)
  fresh : ∀ c ∈ base, spared c.name → ∀ o ∈ own, o.name ≠ c.name

theorem has_of_mem (h : c ∈ r) : r.has c.name = true :=
  List.any_eq_true.2 ⟨c, h, by simp⟩

namespace Shows

/-- At first a registry shows what it shows. -/
theorem refl (spared : String → Prop) (r : Registry) : Shows spared r [] r where
  mem_iff := by simp
  fresh := by simp

/-- What has been registered was not there at first. -/
theorem has_eq_false (h : Shows spared base own r) (hc : c ∈ own) (hspared : spared c.name) :
    base.has c.name = false := by
  rw [Bool.eq_false_iff]
  intro hhas
  obtain ⟨o, ho, hname⟩ := List.any_eq_true.1 hhas
  have hname' : o.name = c.name := by simpa using hname
  exact h.fresh o ho (hname' ▸ hspared) c hc hname'.symm

/-- A name that was not there at first is there if it has been registered since. -/
theorem has_iff {name : String} (h : Shows spared base own r) (hspared : spared name)
    (hnew : base.has name = false) : r.has name = true ↔ ∃ c ∈ own, c.name = name := by
  constructor
  · intro hhas
    obtain ⟨c, hc, heq⟩ := List.any_eq_true.1 hhas
    obtain rfl : c.name = name := by simpa using heq
    refine ⟨c, ((h.mem_iff c hspared).1 hc).resolve_left fun hbase => ?_, rfl⟩
    cases hnew.symm.trans (has_of_mem hbase)
  · rintro ⟨c, hc, rfl⟩
    exact has_of_mem ((h.mem_iff c hspared).2 (.inr hc))

/-- What others do to names that are not spared makes no difference. -/
theorem of_spared (h : Shows spared base own r)
    (hspared : ∀ c : Collector, spared c.name → (c ∈ r' ↔ c ∈ r)) : Shows spared base own r' where
  mem_iff c hc := (hspared c hc).trans (h.mem_iff c hc)
  fresh := h.fresh

/-- Collectors with names that are not taken are shown once they are there. -/
theorem append (h : Shows spared base own r) (hnames : ∀ c ∈ cs, r.has c.name = false) :
    Shows spared base (own ++ cs) (r ++ cs) := by
  constructor
  · intro c hc
    rw [List.mem_append, h.mem_iff c hc, List.mem_append, or_assoc]
  · intro c hbase hc o ho
    rcases List.mem_append.1 ho with ho | ho
    · exact h.fresh c hbase hc o ho
    · -- a name that is there already cannot be added
      intro hname
      have htaken : r.has c.name = true := has_of_mem ((h.mem_iff c hc).2 (.inl hbase))
      rw [← hname, hnames o ho] at htaken
      cases htaken

/-- Collectors that are added are shown. -/
theorem addAll (h : Shows spared base own r) (hadd : Registry.addAll cs r = (r', none)) :
    Shows spared base (own ++ cs) r' := by
  obtain ⟨rfl, hnames⟩ := eq_of_addAll hadd
  exact h.append hnames

/-- One collector is taken out. -/
theorem remove (h : Shows spared base (own ++ o :: cs) r)
    (hnames : ((own ++ o :: cs).map (·.name)).Nodup) (hremove : r.remove o.name = .ok r') :
    Shows spared base (own ++ cs) r' := by
  have hothers : ∀ c, c ∈ own ∨ c ∈ cs → c.name ≠ o.name := by
    rw [List.map_append, List.map_cons, List.nodup_append, List.nodup_cons] at hnames
    obtain ⟨-, ⟨hafter, -⟩, hbefore⟩ := hnames
    rintro c (hc | hc) hname
    · exact hbefore _ (List.mem_map_of_mem hc) _ List.mem_cons_self hname
    · exact hafter (hname ▸ List.mem_map_of_mem hc)
  constructor
  · intro c hc
    rw [mem_of_remove hremove, h.mem_iff c hc, List.mem_append, List.mem_append, List.mem_cons]
    constructor
    · rintro ⟨hbase | hown | rfl | hcs, hname⟩
      · exact .inl hbase
      · exact .inr (.inl hown)
      · exact absurd rfl hname
      · exact .inr (.inr hcs)
    · rintro (hbase | hown)
      · exact ⟨.inl hbase, (h.fresh c hbase hc o (by simp)).symm⟩
      · exact ⟨.inr (hown.imp_right .inr), hothers c hown⟩
  · intro c hbase hc o' ho'
    refine h.fresh c hbase hc o' ?_
    rw [List.mem_append] at ho' ⊢
    exact ho'.imp_right (List.mem_cons_of_mem _)

/-- A collector whose name is not spared need not be listed. -/
theorem of_unspared (h : Shows spared base (own ++ o :: cs) r) (ho : ¬ spared o.name) :
    Shows spared base (own ++ cs) r where
  mem_iff c hc := by
    have hne : c ≠ o := fun heq => ho (heq ▸ hc)
    rw [h.mem_iff c hc, List.mem_append, List.mem_append, List.mem_cons, or_iff_right hne]
  fresh c hbase hc o' ho' := by
    refine h.fresh c hbase hc o' ?_
    rw [List.mem_append] at ho' ⊢
    exact ho'.imp_right (List.mem_cons_of_mem _)

/-- **Collectors are taken out again, up to a name that is missing.**  The removal stops there;
others did not spare that name, and what is shown of the collectors stands behind it. -/
theorem removeAll {others : List Collector} (h : Shows spared base (own ++ (cs ++ others)) r)
    (hnames : ((own ++ (cs ++ others)).map (·.name)).Nodup) :
    ∃ left, (left = [] ∨ ∃ o, o :: left <:+ cs ∧ ¬ spared o.name) ∧
      Shows spared base (own ++ (left ++ others)) (Registry.removeAll (cs.map (·.name)) r).1 := by
  induction cs generalizing r with
  | nil => exact ⟨[], .inl rfl, h⟩
  | cons o cs ih =>
    have hnames' : ((own ++ (cs ++ others)).map (·.name)).Nodup := by
      refine hnames.sublist (List.Sublist.map _ ?_)
      exact (List.Sublist.refl own).append (List.sublist_cons_self ..)
    rw [List.map_cons, Registry.removeAll]
    cases hremove : r.remove o.name with
    | ok r₁ =>
      obtain ⟨left, hleft, hshows⟩ := ih (h.remove hnames hremove) hnames'
      refine ⟨left, hleft.imp_right ?_, hshows⟩
      rintro ⟨o', hsuffix, ho'⟩
      exact ⟨o', hsuffix.trans (List.suffix_cons ..), ho'⟩
    | error fault =>
      have hmissing : r.has o.name ≠ true := by
        intro hhas
        rw [Registry.remove, if_pos hhas] at hremove
        cases hremove
      have hunspared : ¬ spared o.name := fun hspared =>
        hmissing (has_of_mem ((h.mem_iff o hspared).2 (by simp)))
      exact ⟨cs, .inr ⟨o, List.suffix_refl _, hunspared⟩, h.of_unspared hunspared⟩

end Shows

end Registry

/-! ### Meters that are registered one after the other -/

namespace State

/-- What registering a meter does, if it succeeds. -/
theorem register_eq {st st' : State} {place : Nat} {m : Meter} (hmeter : st.meters[place]? = some m)
    (h : st.register place = (st', none)) :
    Registry.addAll (m.collectors place) st.registry = (st'.registry, none) ∧
      st'.meters = st.meters.set place m.registered := by
  unfold register Metrics.register at h
  rw [hmeter] at h
  dsimp only at h
  rcases hadd : Registry.addAll (m.collectors place) st.registry with ⟨r, _ | fault⟩
  · rw [hadd] at h
    obtain ⟨rfl, -⟩ := Prod.mk.inj h
    exact ⟨rfl, rfl⟩
  · rw [hadd] at h
    cases h

/-- What registering a meter does, if it is refused. -/
theorem register_refused {st st' : State} {place : Nat} {m : Meter} {fault : MetricFault}
    (hmeter : st.meters[place]? = some m) (h : st.register place = (st', some fault)) :
    Registry.addAll (m.collectors place) st.registry = (st'.registry, some fault) ∧
      st'.meters = st.meters := by
  unfold register Metrics.register at h
  rw [hmeter] at h
  dsimp only at h
  rcases hadd : Registry.addAll (m.collectors place) st.registry with ⟨r, _ | fault'⟩
  · rw [hadd] at h
    cases h
  · rw [hadd] at h
    obtain ⟨rfl, hfault⟩ := Prod.mk.inj h
    obtain rfl : fault' = fault := Option.some.inj hfault
    exact ⟨rfl, rfl⟩

/-- What removing a meter does. -/
theorem unregister_eq {st : State} {place : Nat} {m : Meter}
    (hmeter : st.meters[place]? = some m) :
    (st.unregister place).1 = { st with
      registry := (Registry.removeAll ((m.collectors place).map (·.name)) st.registry).1 } := by
  unfold unregister Metrics.unregister
  rw [hmeter]

/-- The meters at all places have kept their collectors. -/
def Keeps (st st' : State) : Prop :=
  ∀ (place : Nat) (m : Meter), st.meters[place]? = some m →
    ∃ m', st'.meters[place]? = some m' ∧ m'.collectors place = m.collectors place

theorem Keeps.refl (st : State) : Keeps st st :=
  fun _ m h => ⟨m, h, rfl⟩

theorem Keeps.trans {st₁ st₂ st₃ : State} (h : Keeps st₁ st₂) (h' : Keeps st₂ st₃) :
    Keeps st₁ st₃ := by
  intro place m hm
  obtain ⟨m', hm', heq⟩ := h place m hm
  obtain ⟨m'', hm'', heq'⟩ := h' place m' hm'
  exact ⟨m'', hm'', heq'.trans heq⟩

/-- Registering a meter changes no collectors. -/
theorem keeps_set {st st' : State} {place : Nat} {m : Meter} (hmeter : st.meters[place]? = some m)
    (h : st'.meters = st.meters.set place m.registered) : Keeps st st' := by
  intro place' m' hm'
  by_cases hplace : place = place'
  · obtain rfl := hplace
    obtain rfl := Option.some.inj (hmeter.symm.trans hm')
    refine ⟨m.registered, ?_, by cases m <;> rfl⟩
    rw [h, List.getElem?_set_self (List.getElem?_eq_some_iff.1 hmeter).1]
  · exact ⟨m', by rw [h, List.getElem?_set_ne hplace, hm'], rfl⟩

/-- Registering a meter adds some first ones of its collectors, whose names were free, and all of
them unless it is refused. -/
theorem register_adds {st st' : State} {place : Nat} {m : Meter} {fault : Option MetricFault}
    (hmeter : st.meters[place]? = some m) (h : st.register place = (st', fault)) :
    st.Keeps st' ∧ ∃ n, st'.registry = st.registry ++ (m.collectors place).take n ∧
      (∀ c ∈ (m.collectors place).take n, st.registry.has c.name = false) ∧
      (fault = none → (m.collectors place).length ≤ n) := by
  cases fault with
  | none =>
    obtain ⟨hadd, hmeters⟩ := register_eq hmeter h
    obtain ⟨heq, hfree⟩ := Registry.eq_of_addAll hadd
    refine ⟨keeps_set hmeter hmeters, _, ?_, ?_, fun _ => Nat.le_refl _⟩
    · rw [List.take_length]
      exact heq
    · rw [List.take_length]
      exact hfree
  | some f =>
    obtain ⟨hadd, hmeters⟩ := register_refused hmeter h
    obtain ⟨n, -, heq, hfree⟩ := Registry.eq_of_addAll_refused hadd
    refine ⟨fun place m hm => ⟨m, ?_, rfl⟩, n, heq, hfree, fun hnone => by cases hnone⟩
    rw [hmeters]
    exact hm

end State

/-- Which meter is registered in which step, if one is, and its place. -/
abbrev Plan := Nat → Option (Nat × Meter)

/-- The collectors that are registered in a step. -/
def Plan.collectors (plan : Plan) (k : Nat) : List Collector :=
  (plan k).elim [] fun x => x.2.collectors x.1

/-- The collectors that are registered in the steps before a step. -/
def Plan.before (plan : Plan) (k : Nat) : List Collector :=
  (List.range k).flatMap plan.collectors

theorem Plan.before_succ (plan : Plan) (k : Nat) :
    plan.before (k + 1) = plan.before k ++ plan.collectors k := by
  simp [before, List.range_succ]

theorem Plan.before_sublist (plan : Plan) {k n : Nat} (h : k ≤ n) :
    List.Sublist (plan.before k) (plan.before n) := by
  induction h with
  | refl => exact .refl _
  | step _ ih =>
    rw [plan.before_succ]
    exact ih.trans (List.sublist_append_left ..)

/-- A step in which nothing is registered adds no collectors. -/
theorem Plan.before_succ_of_none {plan : Plan} {k : Nat} (hplan : plan k = none) :
    plan.before (k + 1) = plan.before k := by
  rw [plan.before_succ, Plan.collectors, hplan]
  exact List.append_nil _

/-- Among the collectors of its meter, a collector of a plan stands behind one whose name is not
spared. -/
def Plan.Behind (spared : String → Prop) (plan : Plan) (c : Collector) : Prop :=
  ∃ k o later, o :: later <:+ plan.collectors k ∧ ¬ spared o.name ∧ c ∈ later

/-- What may be left of the collectors of later steps when the steps from a step on have been taken
back. -/
structure Left (spared : String → Prop) (plan : Plan) (k : Nat) (left : List Collector) : Prop where
  behind : ∀ c ∈ left, plan.Behind spared c
  names : ((plan.before k ++ left).map (·.name)).Nodup

/-- The meters of a plan are there, and of the names that are spared, the registry shows what it
showed at first and some collectors more. -/
structure State.Holds (spared : String → Prop) (base : Registry) (plan : Plan)
    (own : List Collector) (st : State) : Prop where
  meters : ∀ (i place : Nat) (m : Meter), plan i = some (place, m) →
    ∃ m', st.meters[place]? = some m' ∧ m'.collectors place = m.collectors place
  shows : Registry.Shows spared base own st.registry

namespace State.Holds

variable {spared : String → Prop} {base : Registry} {plan : Plan} {own left : List Collector}
  {k place : Nat} {m : Meter} {st st' : State}

/-- What others do makes no difference. -/
theorem of_spared (h : Holds spared base plan own st) (hkeeps : Keeps st st')
    (hspared : ∀ c : Collector, spared c.name → (c ∈ st'.registry ↔ c ∈ st.registry)) :
    Holds spared base plan own st' where
  meters i place m hm := by
    obtain ⟨m', hm', heq⟩ := h.meters i place m hm
    obtain ⟨m'', hm'', heq'⟩ := hkeeps place m' hm'
    exact ⟨m'', hm'', heq'.trans heq⟩
  shows := h.shows.of_spared hspared

/-- The meter of a step has the collectors of that step. -/
theorem exists_meter (h : Holds spared base plan own st) (hplan : plan k = some (place, m)) :
    ∃ m', st.meters[place]? = some m' ∧ plan.collectors k = m'.collectors place := by
  obtain ⟨m', hm', hcollectors⟩ := h.meters k place m hplan
  refine ⟨m', hm', ?_⟩
  rw [hcollectors, Plan.collectors, hplan]
  rfl

/-- A step in which a meter is registered. -/
theorem register (h : Holds spared base plan (plan.before k) st)
    (hplan : plan k = some (place, m)) (hregister : st.register place = (st', none)) :
    Holds spared base plan (plan.before (k + 1)) st' := by
  obtain ⟨m', hm', hcollectors⟩ := h.exists_meter hplan
  obtain ⟨hadd, hmeters⟩ := register_eq hm' hregister
  constructor
  · intro i place' m'' hm''
    obtain ⟨m₁, hm₁, heq⟩ := h.meters i place' m'' hm''
    obtain ⟨m₂, hm₂, heq'⟩ := keeps_set hm' hmeters place' m₁ hm₁
    exact ⟨m₂, hm₂, heq'.trans heq⟩
  · rw [plan.before_succ, hcollectors]
    exact h.shows.addAll hadd

/-- A step in which a meter is refused: some of its collectors may be there, but not all. -/
theorem register_refused (h : Holds spared base plan (plan.before k) st)
    (hplan : plan k = some (place, m)) {fault : MetricFault}
    (hregister : st.register place = (st', some fault)) :
    ∃ n < (plan.collectors k).length, Registry.Shows spared base
      (plan.before k ++ (plan.collectors k).take n) st'.registry := by
  obtain ⟨m', hm', hcollectors⟩ := h.exists_meter hplan
  obtain ⟨n, hn, heq, hfree⟩ :=
    Registry.eq_of_addAll_refused (State.register_refused hm' hregister).1
  rw [hcollectors, heq]
  exact ⟨n, hn, h.shows.append hfree⟩

/-- A step taken back: its meter is removed, whether that succeeds or not. -/
theorem unregister (h : Holds spared base plan (plan.before (k + 1) ++ left) st)
    (hleft : Left spared plan (k + 1) left) (hplan : plan k = some (place, m)) :
    ∃ left', Left spared plan k left' ∧
      Holds spared base plan (plan.before k ++ left') (st.unregister place).1 := by
  obtain ⟨m', hm', hcollectors⟩ := h.exists_meter hplan
  have hshows := h.shows
  have hnames := hleft.names
  rw [plan.before_succ, List.append_assoc] at hshows hnames
  obtain ⟨kept, hkept, hremoved⟩ := hshows.removeAll hnames
  refine ⟨kept ++ left, ⟨fun c hc => ?_, ?_⟩, ?_⟩
  · rcases List.mem_append.1 hc with hc | hc
    · rcases hkept with rfl | ⟨o, hsuffix, ho⟩
      · cases hc
      · exact ⟨k, o, kept, hsuffix, ho, hc⟩
    · exact hleft.behind c hc
  · have hsublist : List.Sublist kept (plan.collectors k) := by
      rcases hkept with rfl | ⟨o, hsuffix, -⟩
      · exact List.nil_sublist _
      · exact (List.sublist_cons_self ..).trans hsuffix.sublist
    exact hnames.sublist (((List.Sublist.refl _).append (hsublist.append (.refl _))).map _)
  · rw [unregister_eq hm', ← hcollectors]
    exact ⟨h.meters, hremoved⟩

end State.Holds

end ServiceHost.Metrics
