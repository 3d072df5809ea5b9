import Mathlib.Data.List.Nodup
import ServiceHost.Metrics.Bench
import ServiceHost.Proofs.Metrics.Registration
/-!
Registering a meter is all or nothing.

A meter of calls has two collectors, which are added one after the other, and removed one after the
other, and nothing is taken back when the second of them is refused.  That never happens if of the
two names either both are registered or neither is (`Registry.Whole`): then the first collector is
refused, or none is.  Every step on a bench leaves it so, since the names of two meters are the same
or have nothing in common.

The main result is `Bench.registered_together`.
-/

namespace ServiceHost.Metrics

/-! ### The names of a meter -/

/-- The names of the collectors of a meter of calls. -/
def CallMeter.names (namesp : String) : List String :=
  [requestsName namesp, durationsName namesp]

/-- The names of the collectors of a meter. -/
def Meter.names : Meter → List String
  | .version _ => [versionName]
  | .calls m => CallMeter.names m.namesp

theorem Meter.map_name_collectors (place : Nat) (m : Meter) :
    (m.collectors place).map (·.name) = m.names := by
  cases m <;> rfl

theorem Meter.mem_names {place : Nat} {m : Meter} {name : String} :
    name ∈ m.names ↔ ∃ c ∈ m.collectors place, c.name = name := by
  rw [← m.map_name_collectors place, List.mem_map]

theorem Meter.nodup_names (m : Meter) : m.names.Nodup := by
  cases m with
  | version m => exact List.nodup_singleton _
  | calls m => exact (names_nodup m.namesp).of_cons

theorem Meter.names_ne_nil (m : Meter) : m.names ≠ [] := by
  cases m <;> exact List.cons_ne_nil _ _

@[simp] theorem Meter.names_registered (m : Meter) : m.registered.names = m.names := by
  cases m <;> rfl

/-- Names that are qualified alike are the same only if their common names are. -/
theorem CallMeter.qualified_inj {a b name : String} (h : qualified a name = qualified b name) :
    a = b := by
  have hlength : ∀ x : String, (qualified x name).length =
      if x.isEmpty then name.length else x.length + 1 + name.length := by
    intro x
    unfold qualified
    split
    · rfl
    · rw [String.length_append, String.length_append]
      rfl
  have hlengths := hlength a
  rw [h, hlength b] at hlengths
  unfold qualified at h
  by_cases ha : a.isEmpty <;> by_cases hb : b.isEmpty
  · rw [String.isEmpty_iff.1 ha, String.isEmpty_iff.1 hb]
  · rw [if_pos ha, if_neg hb] at hlengths
    omega
  · rw [if_neg ha, if_pos hb] at hlengths
    omega
  · rw [if_neg ha, if_neg hb] at h
    have hlists :
        (a.toList ++ "_".toList) ++ name.toList = (b.toList ++ "_".toList) ++ name.toList := by
      simpa only [String.toList_append] using congrArg String.toList h
    exact String.toList_inj.1 (List.append_cancel_right (List.append_cancel_right hlists))

/-- Names with different last characters are different. -/
theorem ne_of_getLast? {a b : String} (h : a.toList.getLast? ≠ b.toList.getLast?) : a ≠ b := by
  rintro rfl
  exact h rfl

/-- A meter has the names under a common name, or none of them. -/
theorem Meter.names_eq_or_disjoint (m : Meter) (namesp : String) :
    m.names = CallMeter.names namesp ∨ ∀ name ∈ CallMeter.names namesp, name ∉ m.names := by
  cases m with
  | version m =>
    right
    intro name hname hmem
    obtain rfl := List.mem_singleton.1 hmem
    rcases List.mem_pair.1 hname with h | h
    · exact ne_of_getLast? (by simp [versionName]) h
    · exact ne_of_getLast? (by simp [versionName]) h
  | calls m =>
    by_cases hsame : m.namesp = namesp
    · exact .inl (congrArg CallMeter.names hsame)
    · right
      intro name hname hmem
      rcases List.mem_pair.1 hname with rfl | rfl <;> rcases List.mem_pair.1 hmem with h | h
      · exact hsame (CallMeter.qualified_inj h).symm
      · exact ne_of_getLast? (by simp) h
      · exact ne_of_getLast? (by simp) h
      · exact hsame (CallMeter.qualified_inj h).symm

/-! ### All of some names, or none -/

namespace Registry

variable {r : Registry} {names : List String} {cs : List Collector}

/-- All of some names are registered, or none is. -/
def Whole (r : Registry) (names : List String) : Prop :=
  (∀ name ∈ names, r.has name = true) ∨ ∀ name ∈ names, r.has name = false

instance (r : Registry) (names : List String) : Decidable (r.Whole names) :=
  inferInstanceAs (Decidable (_ ∨ _))

theorem whole_singleton (r : Registry) (name : String) : r.Whole [name] := by
  cases h : r.has name with
  | true => exact .inl (List.forall_mem_singleton.2 h)
  | false => exact .inr (List.forall_mem_singleton.2 h)

theorem has_append (r cs : Registry) (name : String) :
    (r ++ cs).has name = (r.has name || cs.has name) :=
  List.any_append

theorem has_eq_true_iff {name : String} : r.has name = true ↔ name ∈ r.map (·.name) := by
  simp [has, List.any_eq_true]

/-- The registry without the collectors of some names. -/
def without (r : Registry) (names : List String) : Registry :=
  r.filter fun c => c.name ∉ names

theorem has_without (r : Registry) (names : List String) (name : String) :
    (r.without names).has name = true ↔ r.has name = true ∧ name ∉ names := by
  simp only [has_eq_true_iff, without, List.mem_map, List.mem_filter, decide_eq_true_eq]
  constructor
  · rintro ⟨c, ⟨hc, hnot⟩, rfl⟩
    exact ⟨⟨c, hc, rfl⟩, hnot⟩
  · rintro ⟨⟨c, hc, rfl⟩, hnot⟩
    exact ⟨c, ⟨hc, hnot⟩, rfl⟩

theorem without_without (r : Registry) (names names' : List String) :
    (r.without names).without names' = r.without (names ++ names') := by
  simp only [without, List.filter_filter, List.mem_append, not_or, Bool.decide_and, Bool.and_comm]

/-- Collectors of different names that are all free are all added. -/
theorem addAll_of_free (hnames : (cs.map (·.name)).Nodup)
    (hfree : ∀ c ∈ cs, r.has c.name = false) : addAll cs r = (r ++ cs, none) := by
  induction cs generalizing r with
  | nil => rw [addAll, List.append_nil]
  | cons c cs ih =>
    rw [List.map_cons, List.nodup_cons] at hnames
    have hadd : r.add c = .ok (r ++ [c]) := by
      rw [add, hfree c List.mem_cons_self]
      rfl
    rw [addAll, hadd]
    show addAll cs (r ++ [c]) = _
    rw [ih hnames.2, List.append_assoc, List.singleton_append]
    intro c' hc'
    rw [has_append, hfree c' (List.mem_cons_of_mem c hc'), Bool.false_or]
    refine Bool.eq_false_iff.2 fun h => hnames.1 ?_
    rw [has_eq_true_iff, List.map_singleton, List.mem_singleton] at h
    exact h ▸ List.mem_map_of_mem hc'

/-- Collectors of names that are taken are refused. -/
theorem addAll_of_taken (hne : cs ≠ []) (htaken : ∀ c ∈ cs, r.has c.name = true) :
    addAll cs r = (r, some .duplicate) := by
  obtain ⟨c, cs, rfl⟩ := List.exists_cons_of_ne_nil hne
  rw [addAll, add, htaken c List.mem_cons_self]
  rfl

/-- Different names that are all registered are all removed. -/
theorem removeAll_of_there (hnames : names.Nodup) (hthere : ∀ name ∈ names, r.has name = true) :
    removeAll names r = (r.without names, none) := by
  induction names generalizing r with
  | nil => simp [removeAll, without]
  | cons name names ih =>
    rw [List.nodup_cons] at hnames
    obtain ⟨hname, hlater⟩ := List.forall_mem_cons.1 hthere
    have hremove : r.remove name = .ok (r.without [name]) := by
      rw [remove, if_pos hname, without]
      simp only [List.mem_singleton, decide_not, bne, Bool.beq_eq_decide_eq]
    rw [removeAll, hremove]
    show removeAll names (r.without [name]) = _
    rw [ih hnames.2, without_without, List.singleton_append]
    intro name' hname'
    refine (has_without _ _ _).2 ⟨hlater name' hname', fun h => hnames.1 ?_⟩
    exact List.mem_singleton.1 h ▸ hname'

/-- Names that are missing are not removed. -/
theorem removeAll_of_missing (hne : names ≠ []) (hmissing : ∀ name ∈ names, r.has name = false) :
    removeAll names r = (r, some .notRegistered) := by
  obtain ⟨name, names, rfl⟩ := List.exists_cons_of_ne_nil hne
  rw [removeAll, remove, hmissing name List.mem_cons_self]
  rfl

/-- Removing a single name leaves the others. -/
theorem removeAll_singleton (name : String) (r : Registry) :
    (removeAll [name] r).1 = r.without [name] := by
  rcases r.whole_singleton name with hthere | hmissing
  · rw [removeAll_of_there (List.nodup_singleton _) hthere]
  · rw [removeAll_of_missing (List.cons_ne_nil _ _) hmissing, without, List.filter_eq_self.2]
    intro c hc
    have hne : c.name ≠ name := by
      rintro rfl
      cases (has_of_mem hc).symm.trans (hmissing _ (List.mem_singleton_self _))
    simpa using hne

end Registry

/-! ### One meter -/

section

variable {meters : Meters} {r : Registry} {place : Nat} {m : Meter}

/-- A meter whose names are taken is refused, and one whose names are free is registered. -/
theorem register_of_whole (hmeter : meters[place]? = some m) (hwhole : r.Whole m.names) :
    ((∀ name ∈ m.names, r.has name = true) ∧
        register meters r place = (meters, r, some .duplicate)) ∨
      ((∀ name ∈ m.names, r.has name = false) ∧
        register meters r place =
          (meters.set place m.registered, r ++ m.collectors place, none)) := by
  refine hwhole.imp (fun hthere => ⟨hthere, ?_⟩) (fun hmissing => ⟨hmissing, ?_⟩)
  · have hne : m.collectors place ≠ [] := by
      cases m <;> exact List.cons_ne_nil _ _
    have hadd : Registry.addAll (m.collectors place) r = (r, some .duplicate) :=
      Registry.addAll_of_taken hne fun c hc => hthere _ (Meter.mem_names.2 ⟨c, hc, rfl⟩)
    simp only [register, hmeter, hadd]
  · have hnodup : ((m.collectors place).map (·.name)).Nodup := by
      rw [m.map_name_collectors]
      exact m.nodup_names
    have hadd : Registry.addAll (m.collectors place) r = (r ++ m.collectors place, none) :=
      Registry.addAll_of_free hnodup fun c hc => hmissing _ (Meter.mem_names.2 ⟨c, hc, rfl⟩)
    simp only [register, hmeter, hadd]

/-- A meter whose names are registered is removed, and one whose names are missing is not. -/
theorem unregister_of_whole (hmeter : meters[place]? = some m) (hwhole : r.Whole m.names) :
    ((∀ name ∈ m.names, r.has name = true) ∧
        unregister meters r place = (r.without m.names, none)) ∨
      ((∀ name ∈ m.names, r.has name = false) ∧
        unregister meters r place = (r, some .notRegistered)) := by
  have heq : unregister meters r place = Registry.removeAll m.names r := by
    rw [← m.map_name_collectors place]
    simp only [unregister, hmeter]
  rw [heq]
  refine hwhole.imp (fun hthere => ⟨hthere, ?_⟩) (fun hmissing => ⟨hmissing, ?_⟩)
  · exact Registry.removeAll_of_there m.nodup_names hthere
  · exact Registry.removeAll_of_missing m.names_ne_nil hmissing

theorem has_collectors (m : Meter) (place : Nat) (name : String) :
    Registry.has (m.collectors place) name = true ↔ name ∈ m.names := by
  rw [Registry.has_eq_true_iff, m.map_name_collectors]

/-- Registering a meter brings in all names under a common name, or none. -/
theorem Registry.Whole.append_collectors {namesp : String} (m : Meter) (place : Nat)
    (h : r.Whole (CallMeter.names namesp)) :
    Registry.Whole (r ++ m.collectors place) (CallMeter.names namesp) := by
  rcases m.names_eq_or_disjoint namesp with hsame | hother
  · left
    intro name hname
    rw [Registry.has_append, Bool.or_eq_true, has_collectors, hsame]
    exact .inr hname
  · have heq : ∀ name ∈ CallMeter.names namesp,
        Registry.has (r ++ m.collectors place) name = r.has name := by
      intro name hname
      rw [Registry.has_append, Bool.eq_iff_iff, Bool.or_eq_true, has_collectors]
      exact or_iff_left (hother name hname)
    exact h.imp (fun h name hname => (heq name hname).trans (h name hname))
      (fun h name hname => (heq name hname).trans (h name hname))

/-- Removing a meter takes away all names under a common name, or none. -/
theorem Registry.Whole.without {namesp : String} (m : Meter)
    (h : r.Whole (CallMeter.names namesp)) :
    (r.without m.names).Whole (CallMeter.names namesp) := by
  rcases m.names_eq_or_disjoint namesp with hsame | hother
  · right
    intro name hname
    rw [Bool.eq_false_iff, ne_eq, Registry.has_without, hsame]
    exact fun h => h.2 hname
  · have heq : ∀ name ∈ CallMeter.names namesp, (r.without m.names).has name = r.has name := by
      intro name hname
      rw [Bool.eq_iff_iff, Registry.has_without]
      exact and_iff_left (hother name hname)
    exact h.imp (fun h name hname => (heq name hname).trans (h name hname))
      (fun h name hname => (heq name hname).trans (h name hname))

end

/-! ### The bench -/

namespace Bench

/-- The meters that a step adds. -/
def Step.added : Step → List Meter
  | .add meter => [meter]
  | _ => []

/-- The meters there are, and those that some steps add. -/
def brought (b : Bench) (steps : List Step) : List Meter :=
  b.meters ++ steps.flatMap Step.added

theorem map_set {α β : Type} {f : α → β} {xs : List α} {place : Nat} {x y : α}
    (hx : xs[place]? = some x) (hy : f y = f x) : (xs.set place y).map f = xs.map f := by
  obtain ⟨hlt, rfl⟩ := List.getElem?_eq_some_iff.1 hx
  have hlt' : place < (xs.map f).length := by
    rw [List.length_map]
    exact hlt
  rw [List.map_set, hy, ← List.getElem_map f (h := hlt'), List.set_getElem_self]

theorem onCalls_registries (b : Bench) (place : Nat) (f : CallMeter → CallMeter × Result) :
    (b.onCalls place f).1.registries = b.registries := by
  unfold onCalls
  split <;> rfl

theorem onCalls_names (b : Bench) (place : Nat) {f : CallMeter → CallMeter × Result}
    (hf : ∀ m, (f m).1.namesp = m.namesp) :
    (b.onCalls place f).1.meters.map Meter.names = b.meters.map Meter.names := by
  unfold onCalls
  split
  next m hmeter => exact map_set hmeter (congrArg CallMeter.names (hf m))
  next => rfl

/-- A step changes no names of meters. -/
theorem names_step (b : Bench) (s : Step) :
    (b.step s).1.meters.map Meter.names = (b.brought [s]).map Meter.names := by
  have hstays : ∀ s : Step, s.added = [] → (b.brought [s]).map Meter.names =
      b.meters.map Meter.names := by
    intro s hs
    simp [brought, hs]
  cases s with
  | add meter => simp [step, brought, Step.added]
  | register k r =>
    rw [hstays _ rfl]
    show (register b.meters (b.registry r) k).1.map Meter.names = _
    unfold Metrics.register
    split
    · rfl
    next m hmeter =>
      split
      · exact map_set hmeter m.names_registered
      · rfl
  | unregister k r => rw [hstays _ rfl]; rfl
  | observe k method status elapsed =>
    rw [hstays _ rfl]
    exact b.onCalls_names k fun m => rfl
  | count k method status =>
    rw [hstays _ rfl]
    exact b.onCalls_names k fun m => rfl
  | expose r => rw [hstays _ rfl]; rfl

theorem registry_set (b : Bench) (meters : Meters) (k place : Nat) (r : Registry) :
    registry ⟨meters, b.registries.set k r⟩ place =
      if k = place ∧ place < b.registries.length then r else b.registry place := by
  show (b.registries.set k r).getD place [] = _
  rw [List.getD_eq_getElem?_getD, List.getElem?_set]
  by_cases hk : k = place
  · subst hk
    by_cases hlt : k < b.registries.length
    · rw [if_pos rfl, if_pos hlt, if_pos ⟨rfl, hlt⟩, Option.getD_some]
    · rw [if_pos rfl, if_neg hlt, if_neg fun h => hlt h.2, Option.getD_none, registry,
        List.getD_eq_getElem?_getD, List.getElem?_eq_none (Nat.le_of_not_lt hlt), Option.getD_none]
  · rw [if_neg hk, if_neg fun h => hk h.1, registry, List.getD_eq_getElem?_getD]

/-- All collectors of a meter are added to a registry, or all are removed. -/
inductive Changed (b : Bench) (r : Registry) : Registry → Prop where
  | added {k : Nat} {m : Meter} (hmeter : b.meters[k]? = some m) :
      Changed b r (r ++ m.collectors k)
  | removed {k : Nat} {m : Meter} (hmeter : b.meters[k]? = some m) :
      Changed b r (r.without m.names)

theorem step_register {b : Bench} {k r : Nat} {meters : Meters} {registry : Registry}
    {fault : Option MetricFault}
    (h : Metrics.register b.meters (b.registry r) k = (meters, registry, fault)) :
    b.step (.register k r) = (⟨meters, b.registries.set r registry⟩, .ofFault fault) := by
  simp only [step, h]

theorem step_unregister {b : Bench} {k r : Nat} {registry : Registry} {fault : Option MetricFault}
    (h : Metrics.unregister b.meters (b.registry r) k = (registry, fault)) :
    b.step (.unregister k r) = (⟨b.meters, b.registries.set r registry⟩, .ofFault fault) := by
  simp only [step, h]

/-- **What a step does to a registry**, if of every meter's names all are registered or none: it
does nothing, or it succeeds, and adds or removes all collectors of a meter. -/
theorem registry_step {b : Bench} {place : Nat}
    (hwhole : ∀ m ∈ b.meters, (b.registry place).Whole m.names) (s : Step) :
    (b.step s).1.registry place = b.registry place ∨
      (b.step s).2 = .done ∧ b.Changed (b.registry place) ((b.step s).1.registry place) := by
  have hcalls : ∀ (k : Nat) (f : CallMeter → CallMeter × Result),
      (b.onCalls k f).1.registry place = b.registry place := by
    intro k f
    rw [registry, b.onCalls_registries k f]
    rfl
  cases s with
  | add meter => exact .inl rfl
  | register k r =>
    by_cases hplace : r = place ∧ place < b.registries.length
    · obtain ⟨rfl, hlt⟩ := hplace
      cases hmeter : b.meters[k]? with
      | none =>
        have heq : Metrics.register b.meters (b.registry r) k = (b.meters, b.registry r, none) := by
          simp only [Metrics.register, hmeter]
        left
        rw [step_register heq, registry_set, ite_self]
      | some m =>
        rcases register_of_whole hmeter (hwhole m (List.mem_of_getElem? hmeter)) with
          ⟨-, heq⟩ | ⟨-, heq⟩
        · left
          rw [step_register heq, registry_set, ite_self]
        · right
          rw [step_register heq, registry_set, if_pos ⟨rfl, hlt⟩]
          exact ⟨rfl, .added hmeter⟩
    · left
      rw [step_register rfl, registry_set, if_neg hplace]
  | unregister k r =>
    by_cases hplace : r = place ∧ place < b.registries.length
    · obtain ⟨rfl, hlt⟩ := hplace
      cases hmeter : b.meters[k]? with
      | none =>
        have heq : Metrics.unregister b.meters (b.registry r) k = (b.registry r, none) := by
          simp only [Metrics.unregister, hmeter]
        left
        rw [step_unregister heq, registry_set, ite_self]
      | some m =>
        rcases unregister_of_whole hmeter (hwhole m (List.mem_of_getElem? hmeter)) with
          ⟨-, heq⟩ | ⟨-, heq⟩
        · right
          rw [step_unregister heq, registry_set, if_pos ⟨rfl, hlt⟩]
          exact ⟨rfl, .removed hmeter⟩
        · left
          rw [step_unregister heq, registry_set, ite_self]
    · left
      rw [step_unregister rfl, registry_set, if_neg hplace]
  | observe k method status elapsed => exact .inl (hcalls k _)
  | count k method status => exact .inl (hcalls k _)
  | expose r => exact .inl rfl

theorem Changed.whole {b : Bench} {r r' : Registry} {namesp : String} (h : b.Changed r r')
    (hwhole : r.Whole (CallMeter.names namesp)) : r'.Whole (CallMeter.names namesp) := by
  cases h with
  | added hmeter => exact hwhole.append_collectors _ _
  | removed hmeter => exact hwhole.without _

/-- The names of the meters brought in are the same after the first step. -/
theorem names_brought (b : Bench) (s : Step) (rest : List Step) :
    ((b.step s).1.brought rest).map Meter.names = (b.brought (s :: rest)).map Meter.names := by
  rw [brought, List.map_append, names_step, ← List.map_append, brought, brought, List.flatMap_cons,
    List.flatMap_cons, List.flatMap_nil, List.append_nil, List.append_assoc]

theorem names_run (b : Bench) (steps : List Step) :
    (b.run steps).1.meters.map Meter.names = (b.brought steps).map Meter.names := by
  induction steps generalizing b with
  | nil => simp [run, brought]
  | cons s rest ih => exact (ih (b.step s).1).trans (b.names_brought s rest)

/-- What holds of the names of a meter holds of all meters with these names. -/
theorem forall_of_names {p : List String → Prop} {ms ms' : List Meter}
    (hnames : ms'.map Meter.names = ms.map Meter.names) (h : ∀ m ∈ ms, p m.names) :
    ∀ m ∈ ms', p m.names := by
  intro m hm
  obtain ⟨m', hm', heq⟩ := List.mem_map.1 (hnames ▸ List.mem_map_of_mem (f := Meter.names) hm)
  exact heq ▸ h m' hm'

/-- Names of a meter of which all are registered or none stay so, if those under common names do. -/
theorem whole_names {r r' : Registry} (m : Meter) (hwhole : r.Whole m.names)
    (h : ∀ namesp, r.Whole (CallMeter.names namesp) → r'.Whole (CallMeter.names namesp)) :
    r'.Whole m.names := by
  cases m with
  | version m => exact r'.whole_singleton versionName
  | calls m => exact h m.namesp hwhole

/-- The names under a common name stay together along a run. -/
theorem whole_run {b : Bench} {steps : List Step} {place : Nat}
    (hwhole : ∀ m ∈ b.brought steps, (b.registry place).Whole m.names) {namesp : String}
    (h : (b.registry place).Whole (CallMeter.names namesp)) :
    ((b.run steps).1.registry place).Whole (CallMeter.names namesp) := by
  induction steps generalizing b with
  | nil => exact h
  | cons s rest ih =>
    have hstep : ∀ namesp, (b.registry place).Whole (CallMeter.names namesp) →
        ((b.step s).1.registry place).Whole (CallMeter.names namesp) := by
      intro namesp hbefore
      rcases registry_step (fun m hm => hwhole m (List.mem_append_left _ hm)) s with
        heq | ⟨-, hchanged⟩
      · rw [heq]
        exact hbefore
      · exact hchanged.whole hbefore
    refine ih (forall_of_names (b.names_brought s rest) fun m hm => ?_) (hstep namesp h)
    exact whole_names m (hwhole m hm) hstep

/-- **Registering is all or nothing.**  Meters are added, registered, removed and used in any order,
and at first of every meter's names all are registered or none, as in a registry without them.  Then
under every common name either both collectors of calls are registered or none is.  A step that is
refused leaves the registry as it was.  After a meter has been registered, or was refused, its names
are all there; after it has been removed, or was refused, none of them is. -/
theorem registered_together (b : Bench) (steps : List Step) (place : Nat)
    (hwhole : ∀ m ∈ b.brought steps, (b.registry place).Whole m.names) :
    (∀ namesp, (b.registry place).Whole (CallMeter.names namesp) →
      ((b.run steps).1.registry place).Whole (CallMeter.names namesp)) ∧
    (∀ s fault, ((b.run steps).1.step s).2 = .refused fault →
      ((b.run steps).1.step s).1.registry place = (b.run steps).1.registry place) ∧
    ∀ k m, (b.run steps).1.meters[k]? = some m → place < (b.run steps).1.registries.length →
      (∀ name ∈ m.names,
        (((b.run steps).1.step (.register k place)).1.registry place).has name = true) ∧
      ∀ name ∈ m.names,
        (((b.run steps).1.step (.unregister k place)).1.registry place).has name = false := by
  have hafter : ∀ m ∈ (b.run steps).1.meters, ((b.run steps).1.registry place).Whole m.names :=
    forall_of_names (b.names_run steps) fun m hm =>
      whole_names m (hwhole m hm) fun namesp => whole_run hwhole
  refine ⟨fun namesp => whole_run hwhole, fun s fault hrefused => ?_, fun k m hmeter hplace => ?_⟩
  · rcases registry_step hafter s with heq | ⟨hdone, -⟩
    · exact heq
    · rw [hdone] at hrefused
      cases hrefused
  · have hwhole := hafter m (List.mem_of_getElem? hmeter)
    refine ⟨fun name hname => ?_, fun name hname => ?_⟩
    · rcases register_of_whole hmeter hwhole with ⟨hthere, heq⟩ | ⟨-, heq⟩
      · rw [step_register heq, registry_set, ite_self]
        exact hthere name hname
      · rw [step_register heq, registry_set, if_pos ⟨rfl, hplace⟩, Registry.has_append,
          Bool.or_eq_true, has_collectors]
        exact .inr hname
    · rcases unregister_of_whole hmeter hwhole with ⟨-, heq⟩ | ⟨hmissing, heq⟩
      · rw [step_unregister heq, registry_set, if_pos ⟨rfl, hplace⟩, Bool.eq_false_iff, ne_eq,
          Registry.has_without]
        exact fun h => h.2 hname
      · rw [step_unregister heq, registry_set, ite_self]
        exact hmissing name hname

/-- Two meters under one common name and one under none, beside a collector of others. -/
def twins : Bench where
  meters := [.calls ⟨"shop", [], []⟩, .calls ⟨"shop", [], []⟩, .calls ⟨"", [], []⟩]
  registries := [[⟨"up", 9, .version⟩]]

/-- A version comes in, the first of the twins is registered, and the second counts a call. -/
def twinSteps : List Step :=
  [.add (.version ⟨"1", false⟩), .register 3 0, .register 0 0, .count 1 "/a" "OK"]

/-- The second of the twins is refused, and its removal takes out what the first has registered. -/
theorem registered_together_twins :
    (∀ m ∈ twins.brought twinSteps, (twins.registry 0).Whole m.names) ∧
      ((twins.run twinSteps).1.step (.register 1 0)).2 = .refused .duplicate ∧
      ((twins.run twinSteps).1.step (.register 1 0)).1.registry 0 =
        (twins.run twinSteps).1.registry 0 ∧
      ∀ name ∈ CallMeter.names "shop",
        (((twins.run twinSteps).1.step (.unregister 1 0)).1.registry 0).has name = false := by
  have hwhole : ∀ m ∈ twins.brought twinSteps, (twins.registry 0).Whole m.names := by
    decide
  have hrefused : ((twins.run twinSteps).1.step (.register 1 0)).2 = .refused .duplicate := by
    decide
  obtain ⟨-, hunchanged, hafter⟩ := registered_together twins twinSteps 0 hwhole
  refine ⟨hwhole, hrefused, hunchanged _ _ hrefused, ?_⟩
  exact (hafter 1 (.calls ⟨"shop", [(["/a", "OK"], 0)], []⟩) rfl (by decide)).2

end Bench

end ServiceHost.Metrics
