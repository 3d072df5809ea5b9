import ServiceHost.Proofs.Lifecycle.Budget
import ServiceHost.Proofs.Lifecycle.UsualChoice
/-!
A process that has nothing to do is invisible.

Two runs are compared, of which the second has one process more, at place `k`, that has nothing to
do (`Component.Inert`).  Up to the last wait they stand abreast whenever the supervisor acts
(`prepareAll_widened`, `start_widened`, `announce_widened`, `takeCause_widened`,
`closeAll_widened`).  In the last wait the runs of the others may all have ended when the additional
one has not; its scope is cancelled by then, so that what it still does takes no time
(`Engine.Settled`, `Engine.Abreast.drained`).

Main result: `inert_invisible`.
-/

namespace ServiceHost

variable {W : Type}

/-! ### Processes that have nothing to do -/

/-- A process that has nothing to do: nothing to prepare or to shut down, and a run that returns at
once or waits for the end of its scope, and does not fail. -/
structure Component.Inert (p : Component W) : Prop where
  prepare : p.prepare = []
  close : p.close = []
  run : ∀ i ∈ p.run, i.Idle

namespace Supervisor

/-- The supervisor with one process more, at place `k`. -/
def insert (sup : Supervisor W) (k : Nat) (p : Component W) : Supervisor W :=
  { sup with processes := sup.processes.insertIdx k p }

/-- How a run ended, with the place in an error moved. -/
def Ending.shift (k : Nat) : Ending → Ending
  | .returned result => .returned (result.mapError (HostError.shift k))
  | ending => ending

variable {sup : Supervisor W} {k : Nat} {p : Component W}

/-- The processes before and behind the additional one. -/
theorem exists_insert (hk : k ≤ sup.processes.length) (p : Component W) :
    ∃ before after, before.length = k ∧ sup.processes = before ++ after ∧
      (sup.insert k p).processes = before ++ p :: after := by
  obtain ⟨before, after, heq, hlength, hinsert⟩ := List.exists_of_modifyTailIdx (List.cons p) hk
  exact ⟨before, after, hlength, heq, hinsert⟩

/-- The places in the row of processes. -/
theorem exists_zipIdx_insert (hk : k ≤ sup.processes.length) (p : Component W) :
    ∃ before after : List (Component W × Nat), before.length = k ∧
      sup.processes.zipIdx = before ++ after ∧ (sup.insert k p).processes.zipIdx =
        before.map (Prod.map id (shift k)) ++ (p, k) :: after.map (Prod.map id (shift k)) := by
  obtain ⟨before, after, hlength, heq, hinsert⟩ := exists_insert hk p
  refine ⟨before.zipIdx, after.zipIdx k, by rw [List.length_zipIdx, hlength], ?_, ?_⟩
  · rw [heq, List.zipIdx_append, Nat.zero_add, hlength]
  · have hplaces := zipIdx_insert id hlength p after
    rwa [List.map_id, List.map_id, ← hinsert] at hplaces

/-- The processes with their places. -/
theorem numbered_insert (hk : k ≤ sup.processes.length) (p : Component W) :
    Widened (Prod.map (shift k) id) (· = (k, p)) sup.numbered (sup.insert k p).numbered := by
  obtain ⟨before, after, -, heq, hinsert⟩ := exists_zipIdx_insert hk p
  have hrow : Widened _ (· = (p, k)) (before ++ after) _ :=
    .insert (Prod.map id (shift k)) before after rfl
  unfold numbered
  rw [heq, hinsert]
  refine hrow.map (fun _ _ => rfl) ?_
  rintro _ rfl
  rfl

/-- The tasks of the processes, and one that has nothing to do. -/
theorem tasks_insert (hk : k ≤ sup.processes.length) (hp : p.Inert) (s : Scope) (now : Nat) :
    Engine.Crew k s (sup.tasks s now) ((sup.insert k p).tasks s now) := by
  obtain ⟨before, after, hlength, heq, hinsert⟩ := exists_zipIdx_insert hk p
  let task : Component W × Nat → Task W := fun x =>
    { index := x.2, scope := s, code := x.1.run, since := now }
  have hidle : (task (p, k)).Idle k s := ⟨rfl, rfl, hp.run, fun o ho => by cases ho⟩
  have hcrew : Engine.Crew k s (before.map task ++ after.map task) _ :=
    .manned (by rw [List.length_map, hlength]) hidle
  unfold tasks
  rw [heq, hinsert, List.map_append, List.map_append, List.map_cons, List.map_map, List.map_map]
  rw [List.map_map, List.map_map] at hcrew
  exact hcrew

end Supervisor

/-! ### The last wait -/

namespace Engine

open Supervisor (drainedAt)

variable {k deadline : Nat} {s : Scope} {e e' e₁ : Engine W} {t : Task W} {sch sch' : Schedule W}

theorem isCancelled_step {who : Who} {time : Nat} (h : (who, time) ∈ e.background)
    (hs : s.isCancelled e.tokens = true) : s.isCancelled (e.step time who).tokens = true :=
  (acts_course h).1.preserves (fun _ _ hstep => hstep.isCancelled) hs

/-- A caller that is always ready goes on in the end. -/
theorem await_always {ready : Engine W → Option Nat} (hready : ∀ e, ready e ≠ none)
    (sch : Schedule W) (e : Engine W) : (e.await sch ready).2 = true := by
  obtain ⟨e₁, -, hend⟩ := await_waits sch ready e
  generalize e.await sch ready = r at hend
  cases hend with
  | goesOn => rfl
  | never unable => exact absurd unable (hready e₁)

theorem drainedAt_ne_none (deadline : Nat) (e : Engine W) : drainedAt deadline e ≠ none := by
  unfold drainedAt
  split <;> simp

/-- A cancellation that comes is not seen. -/
theorem Resembles.arrive_left {j time : Nat} (h : Resembles k s e e')
    (hable : (.outside j, time) ∈ e.background) :
    Resembles k s (e.step time (.outside j)) e' ∧
      (e.step time (.outside j)).tasks = e.tasks := by
  rcases mem_background.1 hable with ⟨_, o, ho, heq⟩ | ⟨_, _, _, -, -, heq⟩
  · cases heq
    simp only [Engine.step, ho]
    exact ⟨{ h with entries := h.entries.trans (filterMap_entries_of_none _ rfl rfl).symm }, rfl⟩
  · cases heq

theorem Resembles.arrive_right {j time : Nat} (h : Resembles k s e e')
    (hable : (.outside j, time) ∈ e'.background) :
    Resembles k s e (e'.step time (.outside j)) := by
  rcases mem_background.1 hable with ⟨_, o, ho, heq⟩ | ⟨_, _, _, -, -, heq⟩
  · cases heq
    simp only [Engine.step, ho]
    exact { h with entries := (filterMap_entries_of_none _ rfl rfl).trans h.entries }
  · cases heq

/-- When its scope is cancelled, a task that has nothing to do can act at once. -/
theorem taskReadyAt_of_idle (hidle : t.Idle k s) (hlive : t.outcome = none)
    (hs : s.isCancelled e.tokens = true) : e.taskReadyAt t = some e.now := by
  have hready : e.readyAt t.scope t.since t.allowance t.code = some e.now := by
    have hcode := hidle.code
    cases heq : t.code with
    | nil => rfl
    | cons i rest =>
      rw [heq] at hcode
      cases hcode i List.mem_cons_self with
      | pause => simp [readyAt, signalAt, Scope.doneAt, hidle.scope, hs]
      | act => rfl
  unfold taskReadyAt
  rw [if_neg (by simp [hlive]), hready, ite_self]

/-- All runs of the first engine have ended, the scope of the runs is cancelled, and no time has
passed since. -/
structure Settled (k : Nat) (s : Scope) (e e' : Engine W) : Prop extends Resembles k s e e' where
  now : e'.now = e.now
  ended : ∀ t ∈ e.tasks, t.outcome.isSome = true
  cancelled : s.isCancelled e'.tokens = true

namespace Settled

/-- The only task that may still act is the additional one. -/
theorem eq_of_live (h : Settled k s e e') {i : Nat} (here : e'.tasks[i]? = some t)
    (hlive : t.outcome = none) : i = k := by
  by_contra hi
  obtain ⟨j, rfl⟩ := exists_shift_of_ne hi
  rw [h.crew.getElem?_shift] at here
  obtain ⟨u, hu, rfl⟩ := Option.map_eq_some_iff.1 here
  have hended := h.ended u (List.mem_of_getElem? hu)
  rw [show u.outcome = none from hlive] at hended
  cases hended

/-- The first engine's supervisor does not wait any longer. -/
theorem drainedAt_left (h : Settled k s e e') : drainedAt deadline e = some e.now :=
  if_pos (List.all_eq_true.2 h.ended)

/-- In the second engine nothing is waited for either: the additional task can act now, or it has
ended as well. -/
theorem le_now_right (h : Settled k s e e') {time : Nat} (hfirst : ∀ m ∈ e'.background, time ≤ m.2)
    (hsoon : ∀ t, drainedAt deadline e' = some t → time ≤ t) : time ≤ e'.now := by
  by_cases hall : e'.tasks.all (·.outcome.isSome) = true
  · exact hsoon _ (if_pos hall)
  · obtain ⟨t, ht, hlive⟩ : ∃ t ∈ e'.tasks, t.outcome = none := by simpa using hall
    obtain ⟨i, here⟩ := List.mem_iff_getElem?.1 ht
    obtain rfl := h.eq_of_live here hlive
    have hready := taskReadyAt_of_idle (h.crew.idle here) hlive h.cancelled
    exact hfirst _ (mem_background.2 (.inr ⟨i, t, e'.now, here, hready, rfl⟩))

/-- What the first engine still does: only cancellations come. -/
theorem waits_left (h : Settled k s e e') (hstep : Waits (drainedAt deadline) e e₁) :
    Settled k s e₁ e' := by
  cases hstep with
  | @act who time able first soon =>
    have htime : time = e.now :=
      Nat.le_antisymm (soon _ h.drainedAt_left) (now_le_of_mem_background able)
    have hnow : (e.step time who).now = e.now := (now_step able).trans htime
    cases who with
    | caller => exact absurd rfl (ne_caller_of_mem_background able)
    | outside j =>
      obtain ⟨hresembles, htasks⟩ := h.toResembles.arrive_left able
      exact ⟨hresembles, h.now.trans hnow.symm, htasks ▸ h.ended, h.cancelled⟩
    | task i =>
      rcases mem_background.1 able with ⟨_, _, -, heq⟩ | ⟨_, t, _, here, hready, heq⟩
      · cases heq
      · have hended := h.ended t (List.mem_of_getElem? here)
        rw [outcome_of_taskReadyAt hready] at hended
        cases hended

/-- What the second engine still does: cancellations come, and the additional task ends. -/
theorem waits_right (h : Settled k s e e') (hstep : Waits (drainedAt deadline) e' e₁) :
    Settled k s e e₁ := by
  cases hstep with
  | @act who time able first soon =>
    have htime : time = e'.now :=
      Nat.le_antisymm (h.le_now_right first soon) (now_le_of_mem_background able)
    have hnow : (e'.step time who).now = e.now := (now_step able).trans (htime.trans h.now)
    have hover := isCancelled_step able h.cancelled
    cases who with
    | caller => exact absurd rfl (ne_caller_of_mem_background able)
    | outside j => exact ⟨h.toResembles.arrive_right able, hnow, h.ended, hover⟩
    | task i =>
      have hi : i = k := by
        rcases mem_background.1 able with ⟨_, _, -, heq⟩ | ⟨_, t, _, here, hready, heq⟩
        · cases heq
        · cases heq
          exact h.eq_of_live here (outcome_of_taskReadyAt hready)
      subst hi
      exact ⟨(h.toResembles.idle able).1, hnow, h.ended, hover⟩

/-- Both supervisors go on at the same moment. -/
theorem await (h : Settled k s e e') (sch sch' : Schedule W) (deadline : Nat) :
    Resembles k s (e.await sch (drainedAt deadline)).1 (e'.await sch' (drainedAt deadline)).1 ∧
      (e'.await sch' (drainedAt deadline)).1.now = (e.await sch (drainedAt deadline)).1.now := by
  obtain ⟨e₁, hsteps, hend⟩ := await_waits sch (drainedAt deadline) e
  obtain ⟨e₁', hsteps', hend'⟩ := await_waits sch' (drainedAt deadline) e'
  -- what either of them still does leaves them settled, so the order of the steps is no matter
  have hleft : Settled k s e₁ e' := by
    clear hend
    induction hsteps with
    | refl => exact h
    | tail _ hlast ih => exact ih.waits_left hlast
  have hright : Settled k s e₁ e₁' := by
    clear hend'
    induction hsteps' with
    | refl => exact hleft
    | tail _ hlast ih => exact ih.waits_right hlast
  generalize e.await sch _ = r at hend ⊢
  generalize e'.await sch' _ = r' at hend' ⊢
  cases hend with
  | never unable => exact absurd unable (drainedAt_ne_none deadline e₁)
  | @goesOn time able first =>
    cases hend' with
    | never unable => exact absurd unable (drainedAt_ne_none deadline e₁')
    | @goesOn time' able' first' =>
      have htime : e₁.now = time := Option.some.inj (hright.drainedAt_left.symm.trans able)
      have hlate : time' ≤ e₁'.now := hright.le_now_right first' fun t ht =>
        Nat.le_of_eq (Option.some.inj (able'.symm.trans ht))
      have hsoon : e₁'.now ≤ time' := Supervisor.now_le_drainedAt able'
      refine ⟨{ hright with }, ?_⟩
      show time' = time
      rw [← htime, ← hright.now]
      exact Nat.le_antisymm hlate hsoon

end Settled

/-- While a run of the first engine has not ended, both supervisors wait until the deadline. -/
theorem drainedAt_of_live (deadline : Nat) (hcrew : Crew k s e.tasks e'.tasks)
    (hawake : ¬ ∀ t ∈ e.tasks, t.outcome.isSome = true) :
    drainedAt deadline e = some (max e.now deadline) ∧
      drainedAt deadline e' = some (max e'.now deadline) := by
  push Not at hawake
  obtain ⟨t, ht, hlive⟩ := hawake
  obtain ⟨i, here⟩ := List.mem_iff_getElem?.1 ht
  have ht' : t.shift k ∈ e'.tasks := List.mem_of_getElem? (hcrew.get here)
  have hall : ¬ e.tasks.all (·.outcome.isSome) = true :=
    fun hall => hlive (List.all_eq_true.1 hall t ht)
  have hall' : ¬ e'.tasks.all (·.outcome.isSome) = true :=
    fun hall => hlive (List.all_eq_true.1 hall (t.shift k) ht')
  exact ⟨if_neg hall, if_neg hall'⟩

/-- The last wait ends alike, once the scope of the runs is cancelled. -/
theorem Abreast.drained (h : Abreast k s e e') (hover : s.isCancelled e.tokens = true)
    (halike : Schedule.Alike k sch sch') (deadline : Nat) :
    Resembles k s (e.await sch (drainedAt deadline)).1 (e'.await sch' (drainedAt deadline)).1 ∧
      (e'.await sch' (drainedAt deadline)).1.now = (e.await sch (drainedAt deadline)).1.now := by
  have hsettled (e₁ e₁' : Engine W) (hab : Abreast k s e₁ e₁')
      (hs : s.isCancelled e₁.tokens = true)
      (hasleep : ¬ ¬ ∀ t ∈ e₁.tasks, t.outcome.isSome = true) :
      Resembles k s (e₁.await sch (drainedAt deadline)).1
          (e₁'.await sch' (drainedAt deadline)).1 ∧
        (e₁'.await sch' (drainedAt deadline)).1.now = (e₁.await sch (drainedAt deadline)).1.now :=
    have hstill : Settled k s e₁ e₁' :=
      ⟨hab.toResembles, hab.now, not_not.1 hasleep, by rw [hab.tokens, hs]⟩
    hstill.await sch sch' deadline
  by_cases hawake : ¬ ∀ t ∈ e.tasks, t.outcome.isSome = true
  swap
  · exact hsettled e e' h hover hawake
  -- as long as a run of the first engine has not ended, the supervisors wait for the same moment
  have hagree (e₁ e₁' : Engine W) (hstill : ¬ ∀ t ∈ e₁.tasks, t.outcome.isSome = true)
      (hb : Beside k s e₁ e₁') (hnow : e₁.now ≤ e₁'.now)
      (hlate : ∀ t, drainedAt deadline e₁ = some t → e₁'.now ≤ t) :
      drainedAt deadline e₁' = drainedAt deadline e₁ := by
    obtain ⟨hleft, hright⟩ := drainedAt_of_live deadline hb.crew hstill
    have hsoon := hlate _ hleft
    rw [hleft, hright]
    congr 1
    omega
  have hmeets (r r' : Engine W × Bool) (hr : Meets k s r r') (hgoes : r.2 = true) :
      Resembles k s r.1 r'.1 ∧ r'.1.now = r.1.now := by
    cases hr with
    | goesOn abreast => exact ⟨abreast.toResembles, abreast.now⟩
    | never => cases hgoes
  have hstart : Lags sch' (drainedAt deadline) k s e e' :=
    .abreast h (hagree e e' hawake h.toBeside (Nat.le_of_eq h.now.symm) fun t ht =>
      h.now ▸ Supervisor.now_le_drainedAt ht)
  exact Lags.await halike (fun _ _ => Supervisor.now_le_drainedAt) hagree
    (fun _ _ _ hable => isCancelled_step hable) hmeets
    (fun e₁ e₁' hab hs hasleep _ => hsettled e₁ e₁' hab hs hasleep) hstart hover hawake
    (await_always (drainedAt_ne_none deadline) sch e)

end Engine

/-! ### The phases -/

namespace Supervisor

open Engine

variable {k : Nat} {s : Scope} {e e' : Engine W} {sch sch' : Schedule W}
  {sup : Supervisor W} {p : Component W} {l l' : List (Nat × Component W)}

/-- Preparing ends alike. -/
inductive Prepares (k : Nat) (s : Scope) :
    Engine W × Option Ending → Engine W × Option Ending → Prop
  | goesOn {e e' : Engine W} (abreast : Abreast k s e e') : Prepares k s (e, none) (e', none)
  | ends {e e' : Engine W} (beside : Beside k s e e') (ending : Ending) :
      Prepares k s (e, some ending) (e', some (ending.shift k))

/-- One process more, with nothing to prepare, changes nothing for the others. -/
theorem prepareAll_widened (halike : Schedule.Alike k sch sch') (hp : p.prepare = [])
    (hrow : Widened (Prod.map (shift k) id) (· = (k, p)) l l') (outer : Scope)
    (h : Abreast k s e e') :
    Prepares k s (prepareAll sch outer l e) (prepareAll sch' outer l' e') := by
  induction hrow generalizing e e' with
  | nil => exact .goesOn h
  | both x _ ih =>
    obtain ⟨i, q⟩ := x
    have hcall := h.call halike .prepare i outer q.prepare
    have hmoved : Prod.map (shift k) id (i, q) = (shift k i, q) := rfl
    rw [hmoved, prepareAll, prepareAll]
    generalize e.call sch .prepare i outer q.prepare = r,
      e'.call sch' .prepare (shift k i) outer q.prepare = r' at hcall ⊢
    cases hcall with
    | never beside => exact .ends beside .never
    | outcome abreast o =>
      cases o with
      | ok => exact ih abreast
      | panicked => exact .ends abreast.toBeside .panicked
      | failed source =>
        exact .ends (abreast.publish .stopped).toBeside (.returned (.error (.preRun source)))
  | more kind _ ih =>
    subst kind
    obtain ⟨e₁', hcall, habreast⟩ := h.call_right sch' .prepare outer
    rw [prepareAll, hp, hcall]
    exact ih habreast

/-- Shutting down ends alike. -/
inductive Closes (k : Nat) (s : Scope) : Engine W × Ending → Engine W × Ending → Prop
  | returned {e e' : Engine W} (abreast : Abreast k s e e') (result : Except HostError Unit) :
      Closes k s (e, .returned result) (e', .returned (result.mapError (HostError.shift k)))
  | panicked {e e' : Engine W} (beside : Beside k s e e') :
      Closes k s (e, .panicked) (e', .panicked)
  | never {e e' : Engine W} (beside : Beside k s e e') : Closes k s (e, .never) (e', .never)

/-- The place in an error is that of the process that was shut down. -/
theorem withClosed_shift (k index : Nat) (result : Except HostError Unit) (o : Outcome) :
    withClosed (result.mapError (HostError.shift k)) (shift k index) o =
      (withClosed result index o).mapError (HostError.shift k) := by
  cases o <;> cases result <;> rfl

/-- One process more, with nothing to shut down, changes nothing for the others. -/
theorem closeAll_widened (halike : Schedule.Alike k sch sch') (hp : p.close = [])
    (hrow : Widened (Prod.map (shift k) id) (· = (k, p)) l l') (scope : Scope)
    (result : Except HostError Unit) (h : Abreast k s e e') :
    Closes k s (closeAll sch scope l result e)
      (closeAll sch' scope l' (result.mapError (HostError.shift k)) e') := by
  induction hrow generalizing e e' result with
  | nil => exact .returned h result
  | both x _ ih =>
    obtain ⟨i, q⟩ := x
    have hcall := h.call halike .close i scope q.close
    have hmoved : Prod.map (shift k) id (i, q) = (shift k i, q) := rfl
    rw [hmoved, closeAll, closeAll]
    generalize e.call sch .close i scope q.close = r,
      e'.call sch' .close (shift k i) scope q.close = r' at hcall ⊢
    cases hcall with
    | never beside => exact .never beside
    | outcome abreast o =>
      have hrest := ih (withClosed result i o) abreast
      rw [← withClosed_shift] at hrest
      cases o with
      | panicked => exact .panicked abreast.toBeside
      | ok | failed => exact hrest
  | more kind _ ih =>
    subst kind
    obtain ⟨e₁', hcall, habreast⟩ := h.call_right sch' .close scope
    rw [closeAll, hp, hcall]
    exact ih result habreast

/-- The runs begin abreast. -/
theorem start_widened (hk : k ≤ sup.processes.length) (hp : p.Inert) (outer : Scope)
    (h : Abreast k s e e') :
    ((sup.insert k p).start outer e').2 = (sup.start outer e).2 ∧
      Abreast k (sup.start outer e).2 (sup.start outer e).1
        ((sup.insert k p).start outer e').1 := by
  have hscope : Scope.child e'.tokens outer = Scope.child e.tokens outer := by rw [h.tokens]
  -- there is room for one report of each process
  have hlive : (sup.tasks (sup.start outer e).2 e.now).countP (·.outcome.isNone) ≤
      sup.processes.length :=
    Nat.le_trans List.countP_le_length (by rw [tasks, List.length_map, List.length_zipIdx])
  have hwider : sup.processes.length ≤ (sup.insert k p).processes.length := by
    obtain ⟨before, after, -, heq, hinsert⟩ := exists_insert hk p
    rw [heq, hinsert, List.length_append, List.length_append, List.length_cons]
    omega
  have hbegun : Abreast k (sup.start outer e).2
      { (e.hand .prepare outer.token).hand .run (sup.start outer e).2.token with
        tokens := (Scope.child e.tokens outer).2
        tasks := sup.tasks (sup.start outer e).2 e.now
        mailbox := { room := max sup.processes.length 1 } }
      { (e'.hand .prepare outer.token).hand .run (sup.start outer e).2.token with
        tokens := (Scope.child e.tokens outer).2
        tasks := (sup.insert k p).tasks (sup.start outer e).2 e'.now
        mailbox := { room := max (sup.insert k p).processes.length 1 } } := by
    have hcrew := tasks_insert hk hp (sup.start outer e).2 e.now
    have hroom : 0 + (sup.tasks (sup.start outer e).2 e.now).countP (·.outcome.isNone) ≤
        max sup.processes.length 1 := by omega
    have hmailbox : max sup.processes.length 1 ≤ max (sup.insert k p).processes.length 1 := by
      omega
    exact { (h.hand .prepare outer.token).hand .run (sup.start outer e).2.token with
      crew := h.now ▸ hcrew
      reports := rfl
      room := hroom
      wider := hmailbox
      tokens := rfl }
  refine ⟨congrArg Prod.fst hscope, ?_⟩
  rw [start_eq, start_eq, hscope]
  exact hbegun.publish .running

/-- The announcement comes at the same moment. -/
theorem announce_widened (halike : Schedule.Alike k sch sch') (sup : Supervisor W)
    (p : Component W) (h : Abreast k s e e') :
    Abreast k s (announce sch sup e) (announce sch' (sup.insert k p) e') := by
  have hwait := h.await halike (steady_until k s (e.now + sup.startupDelay))
  have hgoes : (e.await sch fun e₁ => some (max e₁.now (e.now + sup.startupDelay))).2 = true :=
    await_always (fun _ => Option.some_ne_none _) sch e
  unfold announce
  dsimp only [insert]
  rw [h.now]
  generalize e.await sch _ = r at hwait hgoes ⊢
  generalize e'.await sch' _ = r' at hwait ⊢
  cases hwait with
  | never => cases hgoes
  | goesOn abreast =>
    cases sup.announcer with
    | none => exact abreast
    | some f =>
      dsimp only
      rw [abreast.world]
      exact (abreast.change _).record .announced

/-- From when on there is a cause to stop. -/
theorem steady_causeAt (k : Nat) (s outer : Scope) :
    Steady k s (causeAt outer : Engine W → Option Nat) := by
  let since (e : Engine W) : Option Nat :=
    if e.mailbox.reports.isEmpty then
      if outer.isCancelled e.tokens then some 0 else outer.deadline
    else some 0
  refine ⟨since, fun e => ?_, fun e e' h => ?_⟩
  · show (if e.mailbox.reports.isEmpty then _ else _) =
      (if e.mailbox.reports.isEmpty then _ else _ : Option Nat).map (max e.now)
    by_cases hempty : e.mailbox.reports.isEmpty = true
    · rw [if_pos hempty, if_pos hempty]
      exact doneAt_eq ..
    · rw [if_neg hempty, if_neg hempty]
      simp
  · simp only [since, h.reports, h.tokens, List.isEmpty_map]

/-- The cause is the same, with its place moved. -/
theorem takeCause_widened (halike : Schedule.Alike k sch sch') (outer : Scope)
    (h : Abreast k s e e') :
    (takeCause sch' outer e').2 = (takeCause sch outer e).2.map (Report.shift k) ∧
      Abreast k s (takeCause sch outer e).1 (takeCause sch' outer e').1 := by
  have hdone : (outer.isDone e'.tokens e'.now && sch'.scopeFirst e') =
      (outer.isDone e.tokens e.now && sch.scopeFirst e) := by
    rw [h.tokens, h.now, halike.scopeFirst s e e' h]
  cases hreports : e.mailbox.reports with
  | nil =>
    have hreports' : e'.mailbox.reports = [] := by rw [h.reports, hreports, List.map_nil]
    simp only [takeCause, hreports, hreports']
    exact ⟨rfl, h⟩
  | cons r rest =>
    have hreports' : e'.mailbox.reports = r.shift k :: rest.map (Report.shift k) := by
      rw [h.reports, hreports, List.map_cons]
    simp only [takeCause, hreports, hreports', hdone]
    by_cases hfirst : (outer.isDone e.tokens e.now && sch.scopeFirst e) = true
    · rw [if_pos hfirst, if_pos hfirst]
      exact ⟨rfl, h⟩
    · rw [if_neg hfirst, if_neg hfirst]
      have hroom := h.room
      rw [hreports, List.length_cons] at hroom
      have htaken : Abreast k s { e with mailbox := { e.mailbox with reports := rest } }
          { e' with mailbox := { e'.mailbox with reports := rest.map (Report.shift k) } } :=
        { h with
          reports := rfl
          room := Nat.le_trans (Nat.add_le_add_right (Nat.le_succ _) _) hroom }
      exact ⟨rfl, htaken.record (.received r)⟩

/-! ### Two runs -/

/-- All that can be seen of two runs is the same, but for the process at place `k` that only the
second one has. -/
structure Unseen (k : Nat) (r r' : Engine W × Ending) : Prop where
  ending : r'.2 = r.2.shift k
  world : r'.1.world = r.1.world
  entries : r'.1.entries.filterMap (Entry.beside? k) = r.1.entries.filterMap (Entry.moved? k)

theorem unseen_of_resembles (h : Resembles k s e e') (ending : Ending) :
    Unseen k (e, ending) (e', ending.shift k) :=
  ⟨rfl, h.world, h.entries⟩

/-- What is left over of the others is cleared away alike. -/
theorem unseen_cleared (h : Resembles k s e e') (hnow : e'.now = e.now) (ending : Ending) :
    Unseen k (cleared e, ending) (cleared e', ending.shift k) := by
  refine ⟨rfl, ?_, ?_⟩
  · rw [cleared_eq, cleared_eq]
    exact h.world
  -- the runs that are aborted, but for that of the additional process
  have haborted : Widened id (fun _ => False)
      ((e.tasks.filter (·.outcome.isNone)).filterMap
        fun t => Entry.moved? k ⟨e.now, e.stage, .aborted t.index⟩)
      ((e'.tasks.filter (·.outcome.isNone)).filterMap
        fun t => Entry.beside? k ⟨e.now, e.stage, .aborted t.index⟩) := by
    have hlive := h.crew.widened.filter (p := (·.outcome.isNone)) fun _ _ => rfl
    refine hlive.filterMap (fun t _ => ?_) fun t x hidle hx => ?_
    · rw [Option.map_id]
      exact Entry.beside?_shift k e.now e.stage (.aborted t.index)
    · rw [hidle.index] at hx
      simp [Entry.beside?, Event.about?] at hx
  have hdiscarded : (e'.mailbox.reports.filterMap
        fun r => Entry.beside? k ⟨e.now, e.stage, .discarded r⟩) =
      e.mailbox.reports.filterMap fun r => Entry.moved? k ⟨e.now, e.stage, .discarded r⟩ := by
    rw [h.reports, List.filterMap_map]
    congr 1
    funext r
    exact Entry.beside?_shift k e.now e.stage (.discarded r)
  rw [filterMap_entries_cleared, filterMap_entries_cleared, h.entries, hnow, h.stage,
    haborted.eq_of_none, hdiscarded]
  rfl

/-- The last stage is the same for the others. -/
theorem stop_unseen (halike : Schedule.Alike k sch sch') (hk : k ≤ sup.processes.length)
    (hp : p.Inert) (h : Abreast k s e e') (cause : Option Report) :
    Unseen k (stop sch sup s cause e)
      (stop sch' (sup.insert k p) s (cause.map (Report.shift k)) e') := by
  have hstopping := h.publish .stopping
  have hscope : Scope.withTimeout (e'.publish .stopping).tokens (e'.publish .stopping).now
      (sup.insert k p).closeTimeout =
      Scope.withTimeout (e.publish .stopping).tokens (e.publish .stopping).now
        sup.closeTimeout := by
    rw [hstopping.tokens, hstopping.now]
    rfl
  have hdeadline : (e'.publish .stopping).now + (sup.insert k p).closeTimeout =
      (e.publish .stopping).now + sup.closeTimeout := by
    rw [hstopping.now]
    rfl
  unfold stop
  dsimp only
  rw [hscope, hdeadline]
  cases Scope.withTimeout (e.publish .stopping).tokens (e.publish .stopping).now
    sup.closeTimeout with
  | none => exact unseen_of_resembles hstopping.toResembles .panicked
  | some x =>
    obtain ⟨scope, tokens⟩ := x
    have hclosing : Abreast k s
        { (e.publish .stopping).hand .close scope.token with tokens := tokens }
        { (e'.publish .stopping).hand .close scope.token with tokens := tokens } :=
      { hstopping.hand .close scope.token with tokens := rfl }
    have hrow := (numbered_insert hk p).reverse
    dsimp only
    generalize hclosed : closeAll sch scope sup.numbered.reverse _ _ = closed
    generalize hclosed' : closeAll sch' scope (sup.insert k p).numbered.reverse _ _ = closed'
    have hcloses : Closes k s closed closed' := by
      subst hclosed hclosed'
      cases cause with
      | none => exact closeAll_widened halike hp.close hrow scope (.ok ()) hclosing
      | some r =>
        exact closeAll_widened halike hp.close hrow scope (.error (.process r.index r.source))
          hclosing
    clear hclosed hclosed'
    cases hcloses with
    | panicked beside => exact unseen_of_resembles beside.toResembles .panicked
    | never beside => exact unseen_of_resembles beside.toResembles .never
    | @returned e₁ e₁' abreast result =>
      have hcancelled := (abreast.cancel s.token).record .runCancelled
      have hover : s.isCancelled (e₁.cancel s.token).tokens = true := by
        simp [Scope.isCancelled, Engine.cancel, Tokens.isCancelled_cancel, Engine.record]
      obtain ⟨hresembles, hnow⟩ := hcancelled.drained hover halike
        ((e.publish .stopping).now + sup.closeTimeout)
      exact unseen_cleared hresembles hnow (.returned result)

/-- The whole run is the same for the others. -/
theorem run_unseen (halike : Schedule.Alike k sch sch') (hk : k ≤ sup.processes.length)
    (hp : p.Inert) (outer : Scope) (h : Abreast k outer e e') :
    Unseen k (sup.run sch outer e) ((sup.insert k p).run sch' outer e') := by
  have hprepares := prepareAll_widened halike hp.prepare (numbered_insert hk p) outer
    (h.publish .preRunning)
  unfold run
  generalize prepareAll sch outer sup.numbered _ = r at hprepares ⊢
  generalize prepareAll sch' outer (sup.insert k p).numbered _ = r' at hprepares ⊢
  cases hprepares with
  | ends beside ending => exact unseen_of_resembles beside.toResembles ending
  | @goesOn e₁ e₁' abreast =>
    -- from here on the additional task waits for the end of the scope that is made for the runs
    obtain ⟨hscope, hstarted⟩ := start_widened hk hp outer abreast
    have hwaiting := announce_widened halike sup p hstarted
    have hwait := hwaiting.await halike (steady_causeAt k _ outer)
    dsimp only
    rw [hscope]
    generalize Engine.await sch (causeAt outer) _ = waited at hwait ⊢
    generalize Engine.await sch' (causeAt outer) _ = waited' at hwait ⊢
    cases hwait with
    | never beside => exact unseen_of_resembles beside.toResembles .never
    | goesOn abreast =>
      obtain ⟨hcause, htaken⟩ := takeCause_widened halike outer abreast
      dsimp only
      rw [hcause]
      exact stop_unseen halike hk hp htaken _

end Supervisor

/-! ### What is seen of the others -/

namespace Engine

/-- The stage that an entry tells was entered, and when. -/
def Entry.change? (x : Entry) : Option (Nat × Stage) :=
  match x.event with
  | .published stage => some (x.time, stage)
  | _ => none

/-- The changes of the stage, in order: when each was made, and to which stage. -/
def changes (e : Engine W) : List (Nat × Stage) :=
  e.entries.filterMap Entry.change?

/-- A call, with the place moved. -/
def Call.shift (k : Nat) (c : Call) : Call :=
  { c with index := ServiceHost.shift k c.index }

/-- Before a run, with nothing left over from another one. -/
structure Untouched (e : Engine W) : Prop extends Fresh e where
  active : e.active = .caller
  reports : e.mailbox.reports = []

variable {k : Nat} {e e' : Engine W}

theorem Untouched.abreast (h : e.Untouched) (k : Nat) (s : Scope) : Abreast k s e e := by
  have hcrew : Crew k s e.tasks e.tasks := by
    rw [h.tasks]
    exact .empty
  refine ⟨⟨⟨rfl, rfl, ?_, hcrew, ?_, ?_, Nat.le_refl _⟩, rfl, rfl, rfl⟩, rfl, ?_⟩
  · rw [entries, h.history]
    rfl
  · rw [h.reports]
    rfl
  · rw [h.reports, live, h.tasks]
    exact Nat.zero_le _
  · rw [h.active]
    rfl

/-- The calls of the others. -/
theorem filter_calls (phase : Phase) (k : Nat) (e : Engine W) :
    (e.calls phase).filter (·.index != k) =
      (e.entries.filterMap (Entry.beside? k)).filterMap (Call.ofEntry? phase) := by
  rw [calls, List.filter_filterMap, List.filterMap_filterMap]
  congr 1
  funext x
  obtain ⟨time, stage, event⟩ := x
  cases event with
  | called p i m =>
    by_cases hp : p = phase <;> by_cases hi : i = k <;>
      simp [Call.ofEntry?, Entry.beside?, Event.cancels, Event.about?, Option.filter, hp, hi]
  | _ =>
    unfold Entry.beside?
    split <;> rfl

theorem map_shift_calls (phase : Phase) (k : Nat) (e : Engine W) :
    (e.calls phase).map (Call.shift k) =
      (e.entries.filterMap (Entry.moved? k)).filterMap (Call.ofEntry? phase) := by
  rw [calls, List.map_filterMap, List.filterMap_filterMap]
  congr 1
  funext x
  obtain ⟨time, stage, event⟩ := x
  cases event with
  | called p i m =>
    by_cases hp : p = phase <;>
      simp [Call.ofEntry?, Entry.moved?, Event.cancels, Event.shift, Call.shift, hp]
  | _ => rfl

/-- The changes of the stage are about no process. -/
theorem changes_eq_beside (k : Nat) (e : Engine W) :
    e.changes = (e.entries.filterMap (Entry.beside? k)).filterMap Entry.change? := by
  rw [changes, List.filterMap_filterMap]
  congr 1
  funext x
  obtain ⟨time, stage, event⟩ := x
  cases event with
  | published s => rfl
  | _ =>
    unfold Entry.beside?
    split <;> rfl

theorem changes_eq_moved (k : Nat) (e : Engine W) :
    e.changes = (e.entries.filterMap (Entry.moved? k)).filterMap Entry.change? := by
  rw [changes, List.filterMap_filterMap]
  congr 1
  funext x
  obtain ⟨time, stage, event⟩ := x
  cases event <;> rfl

end Engine

namespace Supervisor

open Engine

theorem untouched_begin (world : W) (tokens : Tokens) (outside : List (Nat × Token)) :
    (begin world tokens outside).Untouched :=
  ⟨fresh_begin world tokens outside, rfl, rfl⟩

/-- **An inert process is invisible.**  Put in at place `k`, it changes nothing for the others: they
are called in the same order, at the same moments and in the same circumstances, the stages are
entered at the same moments, the world is left the same, and so is all else on record but
cancellations.  The result is the same, but that in an error a place from `k` on is one larger.

Races are resolved alike in both runs; of the usual schedule this is `Schedule.alike_usual`. -/
theorem inert_invisible {sch sch' : Schedule W} {k : Nat} (halike : Schedule.Alike k sch sch')
    (sup : Supervisor W) (hk : k ≤ sup.processes.length) {p : Component W} (hp : p.Inert)
    (outer : Scope) {e : Engine W} (he : e.Untouched) :
    let r := sup.run sch outer e
    let r' := (sup.insert k p).run sch' outer e
    r'.2 = r.2.shift k ∧ r'.1.changes = r.1.changes ∧
      (∀ phase, (r'.1.calls phase).filter (·.index != k) =
        (r.1.calls phase).map (Call.shift k)) ∧
      r'.1.entries.filterMap (Entry.beside? k) = r.1.entries.filterMap (Entry.moved? k) ∧
      r'.1.world = r.1.world := by
  intro r r'
  have hunseen : Unseen k r r' := run_unseen halike hk hp outer (he.abreast k outer)
  refine ⟨hunseen.ending, ?_, fun phase => ?_, hunseen.entries, hunseen.world⟩
  · rw [changes_eq_beside k, changes_eq_moved k r.1, hunseen.entries]
  · rw [filter_calls, map_shift_calls, hunseen.entries]

/-- A process that waits for the end of its scope is put in between two others, of which the second
fails: its place in the result is one larger, and all happens at the same moments. -/
theorem inert_invisible_between :
    let boom : ComponentError := .text "boom"
    let calm : Component Unit := { run := .untilDone }
    let failing : Component Unit :=
      { run := .sleep (150 * Duration.nanosPerMilli) ++ .finish (.failed boom) }
    let sup : Supervisor Unit := { processes := [calm, failing] }
    let start := begin () ⟨1, []⟩ []
    let r := sup.run .usual ⟨[0], none⟩ start
    let r' := (sup.insert 1 calm).run .usual ⟨[0], none⟩ start
    r.2 = .returned (.error (.process 1 boom)) ∧ r'.2 = .returned (.error (.process 2 boom)) ∧
      (r.1.calls .close).map (fun c => (c.index, c.time)) =
        [(1, 150 * Duration.nanosPerMilli), (0, 150 * Duration.nanosPerMilli)] ∧
      ((r'.1.calls .close).filter (·.index != 1)).map (fun c => (c.index, c.time)) =
        [(2, 150 * Duration.nanosPerMilli), (0, 150 * Duration.nanosPerMilli)] ∧
      r'.1.changes = [(0, .idle), (0, .preRunning), (0, .running),
        (150 * Duration.nanosPerMilli, .stopping), (150 * Duration.nanosPerMilli, .stopped)] := by
  intro boom calm failing sup start r r'
  have hcalm : calm.Inert := ⟨rfl, rfl, fun i hi => List.mem_singleton.1 hi ▸ .pause⟩
  obtain ⟨hending, hchanges, hcalls, -, -⟩ := inert_invisible (Schedule.alike_usual 1) sup
    (by decide) hcalm ⟨[0], none⟩ (untouched_begin () ⟨1, []⟩ [])
  have hbase : r.2 = .returned (.error (.process 1 boom)) := by decide +kernel
  have hclosed : (r.1.calls .close).map (fun c => (c.index, c.time)) =
      [(1, 150 * Duration.nanosPerMilli), (0, 150 * Duration.nanosPerMilli)] := by decide +kernel
  have hstages : r.1.changes = [(0, .idle), (0, .preRunning), (0, .running),
      (150 * Duration.nanosPerMilli, .stopping), (150 * Duration.nanosPerMilli, .stopped)] := by
    decide +kernel
  refine ⟨hbase, ?_, hclosed, ?_, hchanges.trans hstages⟩
  · rw [hending, hbase]
    rfl
  · have hshifted := congrArg (List.map fun x : Nat × Nat => (shift 1 x.1, x.2)) hclosed
    rw [hcalls .close, List.map_map]
    rw [List.map_map] at hshifted
    exact hshifted

end Supervisor

end ServiceHost
