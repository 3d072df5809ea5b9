import ServiceHost.Proofs.Metrics.Atomicity
import ServiceHost.Proofs.Metrics.Samples
/-!
Observations and registrations commute.

What a run has done is the row of its events: uses of meters, and changes of registries that were
not refused.  The events alone account for the meters at the end (`Bench.meters_run`), and for the
registries if of every meter's names all are registered or none, so that a refused step leaves
nothing behind (`Bench.registries_run`).  An event touches one meter or one registry, except that a
registration also shows a version.  So a meter depends on its own uses and on whether it was ever
registered, and a registry on its own changes: two runs that agree on these end alike, however they
interleave them (`Bench.interleavings_agree`).
-/

namespace ServiceHost.Metrics

/-! ### Events -/

/-- What is asked of a meter of calls: to take in a call, or to tell a counter, which comes into
being with that. -/
inductive Use where
  | call (method status : String) (elapsed : Duration)
  | read (method status : String)
  deriving DecidableEq

/-- A change of what a registry holds, by the place of the meter. -/
inductive Change where
  | registered (meter : Nat)
  | removed (meter : Nat)
  deriving DecidableEq

/-- The place of the meter that is registered or removed. -/
def Change.meter : Change → Nat
  | .registered k => k
  | .removed k => k

/-- Something that is done to a meter or to a registry. -/
inductive Event where
  | used (meter : Nat) (use : Use)
  | changed (registry : Nat) (change : Change)
  deriving DecidableEq

/-- The labels of the call that is taken in, if one is. -/
def Use.call? : Use → Option (String × String)
  | .call method status _ => some (method, status)
  | .read _ _ => none

def CallMeter.use (m : CallMeter) : Use → CallMeter
  | .call method status elapsed => m.observe method status elapsed
  | .read method status => (m.count method status).1

/-- Versions are not used. -/
def Meter.use (u : Use) : Meter → Meter
  | .calls m => .calls (m.use u)
  | .version m => .version m

/-- The registry after a change, if `own` tells the collectors of the meters. -/
def Change.apply (own : Nat → List Collector) (r : Registry) : Change → Registry
  | .registered k => r ++ own k
  | .removed k => r.without ((own k).map (·.name))

namespace Event

/-- The place of the meter that an event is about. -/
def meter : Event → Nat
  | .used k _ => k
  | .changed _ c => c.meter

def onMeters (ms : Meters) : Event → Meters
  | .used k u => ms.modify k (·.use u)
  | .changed _ (.registered k) => ms.modify k .registered
  | .changed _ (.removed _) => ms

def onRegistries (own : Nat → List Collector) (rs : List Registry) : Event → List Registry
  | .used _ _ => rs
  | .changed r c => rs.modify r fun registry => c.apply own registry

/-- The use of the meter at a place. -/
def useOf (k : Nat) : Event → Option Use
  | .used k' u => if k' = k then some u else none
  | .changed _ _ => none

/-- The change of the registry at a place. -/
def changeOf (r : Nat) : Event → Option Change
  | .used _ _ => none
  | .changed r' c => if r' = r then some c else none

end Event

namespace Bench

/-- What a step tries to do to a meter or to a registry. -/
def Step.attempt : Step → Option Event
  | .observe k method status elapsed => some (.used k (.call method status elapsed))
  | .count k method status => some (.used k (.read method status))
  | .register k r => some (.changed r (.registered k))
  | .unregister k r => some (.changed r (.removed k))
  | .add _ => none
  | .expose _ => none

/-- Is this no refusal? -/
def Result.accepted : Result → Bool
  | .refused _ => false
  | _ => true

/-- What a step does: what it tries, if the meter is there and nothing is refused. -/
def event? (b : Bench) (s : Step) : Option Event :=
  s.attempt.filter fun e => e.meter < b.meters.length && (b.step s).2.accepted

/-- What some steps do one after the other. -/
def events (b : Bench) : List Step → List Event
  | [] => []
  | s :: rest => (b.event? s).toList ++ events (b.step s).1 rest

/-- The uses of the meter at a place. -/
def uses (b : Bench) (steps : List Step) (k : Nat) : List Use :=
  (b.events steps).filterMap (·.useOf k)

/-- The changes of the registry at a place that were not refused. -/
def changes (b : Bench) (steps : List Step) (r : Nat) : List Change :=
  (b.events steps).filterMap (·.changeOf r)

variable {b : Bench} {steps steps' rest : List Step} {s : Step} {e : Event}

/-! ### Meters -/

theorem modify_append {α : Type} {xs : List α} {k : Nat} (h : k < xs.length) (f : α → α)
    (ys : List α) : (xs ++ ys).modify k f = xs.modify k f ++ ys := by
  induction xs generalizing k with
  | nil => cases h
  | cons x xs ih =>
    cases k with
    | zero => rfl
    | succ k =>
      rw [List.cons_append, List.modify_succ_cons, ih (Nat.lt_of_succ_lt_succ h),
        List.modify_succ_cons, List.cons_append]

/-- Events touch only the meter that they are about. -/
theorem onMeters_append {ms : Meters} (h : e.meter < ms.length) (more : Meters) :
    e.onMeters (ms ++ more) = e.onMeters ms ++ more := by
  rcases e with ⟨k, u⟩ | ⟨r, k | k⟩
  · exact modify_append h _ more
  · exact modify_append h _ more
  · rfl

/-- Using the meter of calls at a place. -/
theorem onCalls_meters (b : Bench) (k : Nat) {f : CallMeter → CallMeter × Result} {u : Use}
    (hf : ∀ m, (f m).1 = m.use u) : (b.onCalls k f).1.meters = b.meters.modify k (·.use u) := by
  rw [List.modify_eq_set_getElem?]
  unfold onCalls
  rcases hmeter : b.meters[k]? with - | m | m
  · rfl
  · obtain ⟨hlt, heq⟩ := List.getElem?_eq_some_iff.1 hmeter
    show b.meters = b.meters.set k (.version m)
    rw [← heq, List.set_getElem_self]
  · show b.meters.set k (.calls (f m).1) = b.meters.set k (.calls (m.use u))
    rw [hf]

/-- Using a meter is not refused. -/
theorem onCalls_of_accepted (b : Bench) (k : Nat) {f : CallMeter → CallMeter × Result} {u : Use}
    (hf : ∀ m, (f m).1 = m.use u) (haccepted : ∀ m, (f m).2.accepted = true) :
    (b.onCalls k f).1.meters =
      if (b.onCalls k f).2.accepted then (Event.used k u).onMeters b.meters else b.meters := by
  have hall : (b.onCalls k f).2.accepted = true := by
    unfold onCalls
    split
    next m _ => exact haccepted m
    next => rfl
  rw [if_pos hall, b.onCalls_meters k hf]
  rfl

/-- Registering shows the meter, unless it is refused. -/
theorem register_meters {ms meters : Meters} {r registry : Registry} {k : Nat}
    {fault : Option MetricFault} (h : Metrics.register ms r k = (meters, registry, fault)) :
    meters = if (Result.ofFault fault).accepted then ms.modify k .registered else ms := by
  have hstate : State.register ⟨ms, r⟩ k = (⟨meters, registry⟩, fault) := by
    rw [State.register, h]
  rcases hmeter : ms[k]? with - | m
  · simp only [Metrics.register, hmeter, Prod.mk.injEq] at h
    obtain ⟨rfl, -, -⟩ := h
    rw [List.modify_eq_self (List.getElem?_eq_none_iff.1 hmeter), ite_self]
  · cases fault with
    | none =>
      rw [List.modify_eq_set, hmeter]
      exact (State.register_eq hmeter hstate).2
    | some fault => exact (State.register_refused hmeter hstate).2

theorem meters_of_attempt (h : s.attempt = some e) :
    (b.step s).1.meters = if (b.step s).2.accepted then e.onMeters b.meters else b.meters := by
  cases s with
  | add meter => cases h
  | register k r =>
    obtain rfl := Option.some.inj h
    rcases hregister : Metrics.register b.meters (b.registry r) k with ⟨meters, registry, fault⟩
    rw [step_register hregister]
    exact register_meters hregister
  | unregister k r =>
    obtain rfl := Option.some.inj h
    exact (ite_self _).symm
  | observe k method status elapsed =>
    obtain rfl := Option.some.inj h
    exact b.onCalls_of_accepted k (fun m => rfl) fun m => rfl
  | count k method status =>
    obtain rfl := Option.some.inj h
    exact b.onCalls_of_accepted k (fun m => rfl) fun m => rfl
  | expose r => cases h

/-- What is done to a meter that is not there does nothing. -/
theorem onMeters_eq_self {ms : Meters} (h : ms.length ≤ e.meter) : e.onMeters ms = ms := by
  rcases e with ⟨k, u⟩ | ⟨r, k | k⟩
  · exact List.modify_eq_self h
  · exact List.modify_eq_self h
  · rfl

/-- A step that tries nothing can only bring in a meter. -/
theorem step_of_attempt_none (h : s.attempt = none) :
    (b.step s).1 = { b with meters := b.meters ++ s.added } := by
  cases s with
  | add meter => rfl
  | expose r =>
    show b = { b with meters := b.meters ++ [] }
    rw [List.append_nil]
  | _ => cases h

/-- What a step does to the meters. -/
theorem meters_step (b : Bench) (s : Step) :
    (b.step s).1.meters = (b.event? s).elim b.meters (·.onMeters b.meters) ++ s.added := by
  cases hattempt : s.attempt with
  | none =>
    rw [step_of_attempt_none hattempt, event?, hattempt]
    rfl
  | some e =>
    have hadded : s.added = [] := by
      cases s with
      | add meter => cases hattempt
      | _ => rfl
    rw [hadded, List.append_nil, meters_of_attempt hattempt, event?, hattempt, Option.filter_some]
    by_cases hmeter : e.meter < b.meters.length
    · rw [decide_eq_true hmeter, Bool.true_and]
      split <;> rfl
    · -- without the meter there is no event, and accepting the step makes no difference
      rw [decide_eq_false hmeter, onMeters_eq_self (Nat.le_of_not_lt hmeter), ite_self]
      rfl

theorem meter_lt_of_event? (h : b.event? s = some e) : e.meter < b.meters.length := by
  have hfilter := (Option.filter_eq_some_iff.1 h).2
  rw [Bool.and_eq_true, decide_eq_true_eq] at hfilter
  exact hfilter.1

theorem brought_step (b : Bench) (s : Step) (rest : List Step) :
    (b.step s).1.brought rest =
      (b.event? s).toList.foldl Event.onMeters (b.brought (s :: rest)) := by
  have hadded : (b.step s).1.brought rest =
      (b.event? s).elim b.meters (·.onMeters b.meters) ++ (s :: rest).flatMap Step.added := by
    rw [brought, meters_step, List.append_assoc, List.flatMap_cons]
  rw [hadded]
  -- the meters that are still to come stand behind the one that the event is about
  cases hevent : b.event? s with
  | none => rfl
  | some e => exact (onMeters_append (meter_lt_of_event? hevent) _).symm

/-- **What a run does to the meters** is what its events do to those that there are or that come
in. -/
theorem meters_run (b : Bench) (steps : List Step) :
    (b.run steps).1.meters = (b.events steps).foldl Event.onMeters (b.brought steps) := by
  induction steps generalizing b with
  | nil => exact (List.append_nil _).symm
  | cons s rest ih =>
    rw [events, List.foldl_append, ← brought_step]
    exact ih (b.step s).1

/-! ### Registries -/

/-- The collectors of the meters at their places. -/
def collectorsAt (ms : Meters) (k : Nat) : List Collector :=
  (ms[k]?).elim [] (·.collectors k)

theorem collectorsAt_onMeters (e : Event) (ms : Meters) :
    collectorsAt (e.onMeters ms) = collectorsAt ms := by
  have hmodify : ∀ (k' : Nat) (f : Meter → Meter),
      (∀ k m, (f m).collectors k = m.collectors k) →
        collectorsAt (ms.modify k' f) = collectorsAt ms := by
    intro k' f hf
    funext k
    rw [collectorsAt, collectorsAt, List.getElem?_modify]
    cases ms[k]? with
    | none => rfl
    | some m =>
      show (if k' = k then f m else m).collectors k = m.collectors k
      split
      · exact hf k m
      · rfl
  rcases e with ⟨k, u⟩ | ⟨r, k | k⟩
  · exact hmodify k _ fun place m => by cases m <;> cases u <;> rfl
  · exact hmodify k _ fun place m => by cases m <;> rfl
  · rfl

theorem set_registry (b : Bench) (r : Nat) : b.registries.set r (b.registry r) = b.registries := by
  have h := List.modify_id r b.registries
  rwa [List.modify_eq_set] at h

theorem set_registry_apply (b : Bench) (r : Nat) (f : Registry → Registry) :
    b.registries.set r (f (b.registry r)) = b.registries.modify r f :=
  (List.modify_eq_set f r b.registries).symm

/-- Without its meter a step does nothing to the registries. -/
theorem registries_of_absent (h : s.attempt = some e) (hmeter : b.meters[e.meter]? = none) :
    (b.step s).1.registries = b.registries := by
  cases s with
  | add meter => cases h
  | register k r =>
    obtain rfl := Option.some.inj h
    have heq : Metrics.register b.meters (b.registry r) k = (b.meters, b.registry r, none) := by
      simp only [Metrics.register, show b.meters[k]? = none from hmeter]
    rw [step_register heq]
    exact b.set_registry r
  | unregister k r =>
    obtain rfl := Option.some.inj h
    have heq : Metrics.unregister b.meters (b.registry r) k = (b.registry r, none) := by
      simp only [Metrics.unregister, show b.meters[k]? = none from hmeter]
    rw [step_unregister heq]
    exact b.set_registry r
  | observe k method status elapsed => exact b.onCalls_registries k _
  | count k method status => exact b.onCalls_registries k _
  | expose r => cases h

/-- A step whose meter is there changes a registry unless it is refused, if of the meter's names all
are registered or none. -/
theorem registries_of_attempt {own : Nat → List Collector} {m : Meter} (h : s.attempt = some e)
    (hmeter : b.meters[e.meter]? = some m) (hown : own e.meter = m.collectors e.meter)
    (hwhole : ∀ r, (b.registry r).Whole m.names) :
    (b.step s).1.registries =
      if (b.step s).2.accepted then e.onRegistries own b.registries else b.registries := by
  cases s with
  | add meter => cases h
  | register k r =>
    obtain rfl := Option.some.inj h
    replace hmeter : b.meters[k]? = some m := hmeter
    replace hown : own k = m.collectors k := hown
    rcases register_of_whole hmeter (hwhole r) with ⟨-, heq⟩ | ⟨-, heq⟩
    · rw [step_register heq]
      exact b.set_registry r
    · rw [step_register heq]
      show b.registries.set r (b.registry r ++ m.collectors k) =
        b.registries.modify r (· ++ own k)
      rw [hown]
      exact b.set_registry_apply r (· ++ m.collectors k)
  | unregister k r =>
    obtain rfl := Option.some.inj h
    replace hmeter : b.meters[k]? = some m := hmeter
    replace hown : own k = m.collectors k := hown
    rcases unregister_of_whole hmeter (hwhole r) with ⟨-, heq⟩ | ⟨-, heq⟩
    · rw [step_unregister heq]
      show b.registries.set r ((b.registry r).without m.names) =
        b.registries.modify r (·.without ((own k).map (·.name)))
      rw [hown, m.map_name_collectors]
      exact b.set_registry_apply r (·.without m.names)
    · rw [step_unregister heq]
      exact b.set_registry r
  | observe k method status elapsed =>
    obtain rfl := Option.some.inj h
    exact (b.onCalls_registries k _).trans (ite_self _).symm
  | count k method status =>
    obtain rfl := Option.some.inj h
    exact (b.onCalls_registries k _).trans (ite_self _).symm
  | expose r => cases h

/-- What a step does to the registries. -/
theorem registries_step {own : Nat → List Collector} (s : Step)
    (hown : ∀ k m, b.meters[k]? = some m → own k = m.collectors k)
    (hwhole : ∀ r, ∀ m ∈ b.meters, (b.registry r).Whole m.names) :
    (b.step s).1.registries =
      (b.event? s).toList.foldl (Event.onRegistries own) b.registries := by
  cases hattempt : s.attempt with
  | none =>
    rw [step_of_attempt_none hattempt, event?, hattempt]
    rfl
  | some e =>
    rw [event?, hattempt, Option.filter_some]
    cases hmeter : b.meters[e.meter]? with
    | none =>
      have hout := List.getElem?_eq_none_iff.1 hmeter
      rw [registries_of_absent hattempt hmeter, decide_eq_false (Nat.not_lt.2 hout)]
      rfl
    | some m =>
      have hin := (List.getElem?_eq_some_iff.1 hmeter).1
      have hnames := fun r => hwhole r m (List.mem_of_getElem? hmeter)
      rw [registries_of_attempt hattempt hmeter (hown _ m hmeter) hnames, decide_eq_true hin,
        Bool.true_and]
      split <;> rfl

/-- Of the names of every meter that there is or that comes in all are registered or none. -/
def AllWhole (b : Bench) (steps : List Step) : Prop :=
  ∀ r, ∀ m ∈ b.brought steps, (b.registry r).Whole m.names

theorem AllWhole.step (h : b.AllWhole (s :: rest)) : (b.step s).1.AllWhole rest := by
  intro r
  refine forall_of_names (b.names_brought s rest) fun m hm => ?_
  refine whole_names m (h r m hm) fun namesp hbefore => ?_
  rcases registry_step (fun m hm => h r m (List.mem_append_left _ hm)) s with heq | ⟨-, hchanged⟩
  · rw [heq]
    exact hbefore
  · exact hchanged.whole hbefore

/-- **What a run does to the registries** is what its events do to those that there are. -/
theorem registries_run (h : b.AllWhole steps) : (b.run steps).1.registries =
    (b.events steps).foldl (Event.onRegistries (collectorsAt (b.brought steps))) b.registries := by
  induction steps generalizing b with
  | nil => rfl
  | cons s rest ih =>
    -- no event changes the collectors of a meter, so those of the beginning do for all steps
    have hsame :
        collectorsAt ((b.step s).1.brought rest) = collectorsAt (b.brought (s :: rest)) := by
      rw [brought_step]
      cases b.event? s with
      | none => rfl
      | some e => exact collectorsAt_onMeters e _
    have hown : ∀ k m, b.meters[k]? = some m →
        collectorsAt (b.brought (s :: rest)) k = m.collectors k := by
      intro k m hmeter
      have hk := (List.getElem?_eq_some_iff.1 hmeter).1
      rw [collectorsAt, brought, List.getElem?_append_left hk, hmeter]
      rfl
    have hstep := registries_step s hown fun r m hm => h r m (List.mem_append_left _ hm)
    rw [events, List.foldl_append, ← hstep, ← hsame]
    exact ih h.step

/-! ### One meter, one registry -/

/-- A meter after it has been used, and registered if `registered` says so. -/
def after (uses : List Use) (registered : Bool) : Meter → Meter
  | .calls m => .calls (uses.foldl CallMeter.use m)
  | .version m => .version { m with shown := m.shown || registered }

/-- Is the meter at a place registered with this event? -/
def registers (k : Nat) : Event → Bool
  | .changed _ c => c == .registered k
  | .used _ _ => false

variable {es : List Event}

theorem any_registers_iff {k : Nat} : (b.events steps).any (registers k) = true ↔
    ∃ r, .registered k ∈ b.changes steps r := by
  simp only [List.any_eq_true, changes, List.mem_filterMap]
  constructor
  · rintro ⟨⟨_, _⟩ | ⟨r, c⟩, hmem, hregisters⟩
    · cases hregisters
    · obtain rfl := beq_iff_eq.1 hregisters
      exact ⟨r, _, hmem, if_pos rfl⟩
  · rintro ⟨r, ⟨_, _⟩ | ⟨r', c⟩, hmem, hchange⟩
    · cases hchange
    · obtain ⟨-, hchange⟩ := Option.ite_none_right_eq_some.1 hchange
      obtain rfl := Option.some.inj hchange
      exact ⟨_, hmem, beq_self_eq_true _⟩

/-- A meter depends on its uses, and on whether it is registered. -/
theorem getElem?_meters (ms : Meters) (k : Nat) : (es.foldl Event.onMeters ms)[k]? =
    ms[k]?.map (after (es.filterMap (·.useOf k)) (es.any (registers k))) := by
  induction es generalizing ms with
  | nil =>
    have hid : after [] false = id := by
      funext m
      cases m with
      | version m => simp [after]
      | calls m => rfl
    exact (congrFun (hid ▸ Option.map_id) _).symm
  | cons e es ih =>
    rw [List.foldl_cons, ih, List.any_cons]
    rcases e with ⟨k', u⟩ | ⟨r, k' | k'⟩
    · by_cases hk : k' = k
      · have huse : (Event.used k' u).useOf k = some u := if_pos hk
        rw [List.filterMap_cons_some huse, Event.onMeters, hk, List.getElem?_modify_eq,
          Option.map_eq_map, Option.map_map]
        congr 1
        funext m
        cases m <;> rfl
      · have huse : (Event.used k' u).useOf k = none := if_neg hk
        rw [List.filterMap_cons_none huse, Event.onMeters, List.getElem?_modify_ne _ _ hk]
        rfl
    · have huse : (Event.changed r (.registered k')).useOf k = none := rfl
      rw [List.filterMap_cons_none huse, Event.onMeters]
      by_cases hk : k' = k
      · rw [hk, List.getElem?_modify_eq, Option.map_eq_map, Option.map_map]
        congr 1
        funext m
        cases m <;> simp [after, registers, Meter.registered]
      · have hnot : registers k (.changed r (.registered k')) = false :=
          beq_eq_false_iff_ne.2 fun h => hk (Change.registered.inj h)
        rw [List.getElem?_modify_ne _ _ hk, hnot, Bool.false_or]
    · rfl

/-- A registry depends on its changes. -/
theorem getElem?_registries (own : Nat → List Collector) (rs : List Registry) (r : Nat) :
    (es.foldl (Event.onRegistries own) rs)[r]? =
      rs[r]?.map ((es.filterMap (·.changeOf r)).foldl (Change.apply own)) := by
  induction es generalizing rs with
  | nil => exact Option.map_id'.symm
  | cons e es ih =>
    rw [List.foldl_cons, ih]
    rcases e with ⟨k', u⟩ | ⟨r', c⟩
    · rfl
    · by_cases hr : r' = r
      · have hchange : (Event.changed r' c).changeOf r = some c := if_pos hr
        rw [List.filterMap_cons_some hchange, Event.onRegistries, hr, List.getElem?_modify_eq,
          Option.map_eq_map, Option.map_map]
        rfl
      · have hchange : (Event.changed r' c).changeOf r = none := if_neg hr
        rw [List.filterMap_cons_none hchange, Event.onRegistries, List.getElem?_modify_ne _ _ hr]

/-- A meter at the end of a run. -/
theorem getElem?_meters_run (b : Bench) (steps : List Step) (k : Nat) :
    (b.run steps).1.meters[k]? = (b.brought steps)[k]?.map
      (after (b.uses steps k) ((b.events steps).any (registers k))) := by
  rw [meters_run]
  exact getElem?_meters _ k

/-- A registry at the end of a run. -/
theorem getElem?_registries_run (h : b.AllWhole steps) (r : Nat) :
    (b.run steps).1.registries[r]? = b.registries[r]?.map
      ((b.changes steps r).foldl (Change.apply (collectorsAt (b.brought steps)))) := by
  rw [registries_run h]
  exact getElem?_registries _ _ r

end Bench

/-! ### What is counted -/

namespace CallMeter

variable {m : CallMeter}

theorem Sound.use (h : m.Sound) (u : Use) : (m.use u).Sound := by
  cases u with
  | call method status elapsed => exact h.observe method status elapsed
  | read method status => exact h.count method status

/-- A use counts the call that it takes in. -/
theorem Sound.grown_use (h : m.Sound) (u : Use) : Grown m (m.use u) u.call? := by
  cases u with
  | call method status elapsed => exact h.grown_observe method status elapsed
  | read method status => exact h.grown_count method status

/-- Every call is counted once. -/
theorem Sound.requestCount_foldl (h : m.Sound) (us : List Use) (method status : String) :
    (us.foldl CallMeter.use m).requestCount method status = m.requestCount method status +
      us.countP fun u => u.call? = some (method, status) := by
  induction us generalizing m with
  | nil => rfl
  | cons u us ih =>
    rw [List.foldl_cons, ih (h.use u), (h.grown_use u).requests, List.countP_cons]
    simp only [decide_eq_true_eq]
    omega

/-- The duration of every call is counted once. -/
theorem Sound.durationCount_foldl (h : m.Sound) (us : List Use) (method : String) :
    (us.foldl CallMeter.use m).durationCount method = m.durationCount method +
      us.countP fun u => u.call?.map Prod.fst = some method := by
  induction us generalizing m with
  | nil => rfl
  | cons u us ih =>
    rw [List.foldl_cons, ih (h.use u), (h.grown_use u).durations, List.countP_cons]
    simp only [decide_eq_true_eq]
    omega

end CallMeter

/-! ### Two runs -/

namespace Bench

/-- It is enough to look at the registries that there are. -/
theorem AllWhole.of_forall {b : Bench} {steps : List Step}
    (h : ∀ r ∈ b.registries, ∀ m ∈ b.brought steps, r.Whole m.names) : b.AllWhole steps := by
  intro r m hm
  rw [registry, List.getD_eq_getElem?_getD]
  cases hregistry : b.registries[r]? with
  | none => exact .inr fun name _ => rfl
  | some registry => exact h registry (List.mem_of_getElem? hregistry) m hm

/-- **Observations and registrations commute.**  Two runs bring in the same meters, use each meter
in the same way, and change each registry in the same way, but do so in different orders.  Then they
end alike, and every registry shows the same and every counter tells the same.  What a meter of
calls tells is what it told at first and the calls that it has taken in since, each of them once,
wherever the meter was registered at the time. -/
theorem interleavings_agree (b : Bench) (steps steps' : List Step)
    (hwhole : ∀ r ∈ b.registries, ∀ m ∈ b.brought steps, r.Whole m.names)
    (hadded : steps.flatMap Step.added = steps'.flatMap Step.added)
    (huses : ∀ k, b.uses steps k = b.uses steps' k)
    (hchanges : ∀ r, b.changes steps r = b.changes steps' r) :
    (b.run steps).1 = (b.run steps').1 ∧
    (∀ r, ((b.run steps).1.step (.expose r)).2 = ((b.run steps').1.step (.expose r)).2) ∧
    (∀ k method status, ((b.run steps).1.step (.count k method status)).2 =
      ((b.run steps').1.step (.count k method status)).2) ∧
    ∀ k m, (b.brought steps)[k]? = some (.calls m) → m.Sound →
      ∃ m', (b.run steps).1.meters[k]? = some (.calls m') ∧
        (∀ method status, m'.requestCount method status = m.requestCount method status +
          (b.uses steps k).countP fun u => u.call? = some (method, status)) ∧
        ∀ method, m'.durationCount method = m.durationCount method +
          (b.uses steps k).countP fun u => u.call?.map Prod.fst = some method := by
  have hbrought : b.brought steps = b.brought steps' := by
    rw [brought, brought, hadded]
  have hmeters : (b.run steps).1.meters = (b.run steps').1.meters := by
    refine List.ext_getElem? fun k => ?_
    have hregistered :
        (b.events steps).any (registers k) = (b.events steps').any (registers k) := by
      rw [Bool.eq_iff_iff, any_registers_iff, any_registers_iff]
      exact exists_congr fun r => by rw [hchanges r]
    rw [getElem?_meters_run, getElem?_meters_run, huses k, hregistered, hbrought]
  have hregistries : (b.run steps).1.registries = (b.run steps').1.registries := by
    refine List.ext_getElem? fun r => ?_
    rw [getElem?_registries_run (.of_forall hwhole),
      getElem?_registries_run (.of_forall (hbrought ▸ hwhole)), hchanges r, hbrought]
  have hsame : (b.run steps).1 = (b.run steps').1 := by
    show mk (b.run steps).1.meters (b.run steps).1.registries =
      mk (b.run steps').1.meters (b.run steps').1.registries
    rw [hmeters, hregistries]
  refine ⟨hsame, fun r => by rw [hsame], fun k method status => by rw [hsame], ?_⟩
  intro k m hm hsound
  refine ⟨(b.uses steps k).foldl CallMeter.use m, ?_, hsound.requestCount_foldl _,
    hsound.durationCount_foldl _⟩
  rw [getElem?_meters_run, hm]
  rfl

/-- Two meters under one common name, a version, and two registries without collectors. -/
def rivals : Bench where
  meters := [.calls ⟨"shop", [], []⟩, .calls ⟨"shop", [], []⟩, .version ⟨"1", false⟩]
  registries := [[], []]

/-- A rival counts a call before it is registered, and another one after it has been removed. -/
def callsOutside : List Step :=
  [.observe 0 "/a" "OK" (.seconds 1), .register 0 0, .register 1 1, .register 2 0,
    .unregister 0 0, .observe 0 "/a" "OK" (.seconds 2), .register 1 0,
    .observe 1 "/b" "OK" (.seconds 3)]

/-- The same calls are counted while the rival is registered. -/
def callsInside : List Step :=
  [.observe 1 "/b" "OK" (.seconds 3), .register 0 0, .register 0 0,
    .observe 0 "/a" "OK" (.seconds 1), .observe 0 "/a" "OK" (.seconds 2), .register 2 0,
    .unregister 0 0, .register 1 0, .register 1 1]

/-- Calls are counted whether the meter is registered or not. -/
theorem interleavings_agree_rivals :
    (rivals.run callsOutside).1 = (rivals.run callsInside).1 ∧
    ∃ m, (rivals.run callsOutside).1.meters[0]? = some (.calls m) ∧
      m.requestCount "/a" "OK" = 2 := by
  have houtside : rivals.events callsOutside =
      [.used 0 (.call "/a" "OK" (.seconds 1)), .changed 0 (.registered 0),
        .changed 1 (.registered 1), .changed 0 (.registered 2), .changed 0 (.removed 0),
        .used 0 (.call "/a" "OK" (.seconds 2)), .changed 0 (.registered 1),
        .used 1 (.call "/b" "OK" (.seconds 3))] := by decide +kernel
  have hinside : rivals.events callsInside =
      [.used 1 (.call "/b" "OK" (.seconds 3)), .changed 0 (.registered 0),
        .used 0 (.call "/a" "OK" (.seconds 1)), .used 0 (.call "/a" "OK" (.seconds 2)),
        .changed 0 (.registered 2), .changed 0 (.removed 0), .changed 0 (.registered 1),
        .changed 1 (.registered 1)] := by decide +kernel
  have huses : ∀ k, rivals.uses callsOutside k = rivals.uses callsInside k := by
    intro k
    rw [uses, uses, houtside, hinside]
    rcases k with _ | _ | k <;> rfl
  have hchanges : ∀ r, rivals.changes callsOutside r = rivals.changes callsInside r := by
    intro r
    rw [changes, changes, houtside, hinside]
    rcases r with _ | _ | r <;> rfl
  obtain ⟨hsame, -, -, hcounted⟩ := interleavings_agree rivals callsOutside callsInside
    (by decide) rfl huses hchanges
  obtain ⟨m, hm, hrequests, -⟩ := hcounted 0 ⟨"shop", [], []⟩ rfl
    ⟨List.Pairwise.nil, List.Pairwise.nil, fun _ => rfl⟩
  refine ⟨hsame, m, hm, ?_⟩
  rw [hrequests, uses, houtside]
  rfl

end Bench

end ServiceHost.Metrics
