import Mathlib.Data.List.Induction
import ServiceHost.Proofs.Lifecycle.Moves
import ServiceHost.Proofs.Lifecycle.Performing
import ServiceHost.Proofs.Lifecycle.Preparation
/-!
Shutdowns that take back what preparations did.

Processes are prepared in order and shut down in reverse order.  Say what holds of the world when so
many of them are prepared: if the preparation of each process leads from one of these conditions to
the next, its shutdown leads back, and nothing else that happens spoils them, then a run that goes
through all its stages ends as it began (`Supervisor.Stops.undone`), whatever ended it and whatever
the shutdowns return.  The conditions on the way back may say less than those on the way there, for
a shutdown need not take back all.  A run that fails to start shuts nothing down, so that what has
been prepared stays as it is (`Supervisor.FailsFirst.leaves`).
-/

namespace ServiceHost.Supervisor

open Engine

variable {W : Type} {R : W → W → Prop} {I J : Nat → W → Prop}

/-- The process in the given place leads from one condition to the next when it is prepared,
respects them all while it runs, and leads back when it is shut down, however that ends. -/
structure Undoes (R : W → W → Prop) (I J : Nat → W → Prop) (k : Nat) (p : Component W) : Prop where
  prepares : ∀ w, I k w → p.prepare.Leads R (fun o w' => o = .ok → I (k + 1) w') w
  runs : p.run.Respects R
  undoes : ∀ w, J (k + 1) w → p.close.Leads R (fun _ w' => J k w') w

/-- Before the preparations there is no task that could spoil anything. -/
theorem respects_publish {e : Engine W} (he : e.Fresh) (stage : Stage) :
    (e.publish stage).Respects R := by
  have hnone : (e.publish stage).tasks = [] := he.tasks
  intro t ht
  rw [hnone] at ht
  cases ht

section Rows

variable [IsPreorder W R] {sch : Schedule W} {s : Scope} {ps : List (Component W)} {k : Nat}
  {e e' : Engine W} {os : List Outcome}

/-- Preparing processes one after the other leads from condition to condition. -/
theorem prepared_of_visits
    (h : Visits sch .prepare s Component.prepare ((ps.zipIdx k).map fun (p, i) => (i, p)) e os e')
    (hok : ∀ o ∈ os, o = .ok) (hps : ∀ j p, ps[j]? = some p → Undoes R I J (k + j) p)
    (he : e.Respects R) (hworld : I k e.world) :
    e'.Respects R ∧ I (k + ps.length) e'.world := by
  induction ps generalizing k e os with
  | nil =>
    cases h
    exact ⟨he, hworld⟩
  | cons p ps ih =>
    rw [List.zipIdx_cons, List.map_cons] at h
    cases h with
    | cons first others =>
      obtain ⟨rfl, hall⟩ := List.forall_mem_cons.1 hok
      obtain ⟨he₁, hworld₁⟩ := call_leads first he ((hps 0 p rfl).prepares _ hworld)
      have hothers (j : Nat) (q : Component W) (hq : ps[j]? = some q) :
          Undoes R I J (k + 1 + j) q := by
        have hplace := hps (j + 1) q hq
        rwa [Nat.add_comm j 1, ← Nat.add_assoc] at hplace
      obtain ⟨he', hworld'⟩ := ih others hall hothers he₁ (hworld₁ rfl)
      rw [List.length_cons, Nat.add_comm ps.length 1, ← Nat.add_assoc]
      exact ⟨he', hworld'⟩

/-- Shutting processes down in reverse order leads back. -/
theorem undone_of_visits
    (h : Visits sch .close s Component.close ((ps.zipIdx k).map fun (p, i) => (i, p)).reverse e os
      e') (hps : ∀ j p, ps[j]? = some p → Undoes R I J (k + j) p) (he : e.Respects R)
    (hworld : J (k + ps.length) e.world) : e'.Respects R ∧ J k e'.world := by
  induction ps using List.reverseRecOn generalizing e os with
  | nil =>
    cases h
    exact ⟨he, hworld⟩
  | append_singleton ps p ih =>
    rw [List.zipIdx_append, List.map_append, List.reverse_append] at h
    cases h with
    | cons first others =>
      have hlast : Undoes R I J (k + ps.length) p := hps ps.length p (by simp)
      rw [List.length_append, List.length_singleton, ← Nat.add_assoc] at hworld
      obtain ⟨he₁, hworld₁⟩ := call_leads first he (hlast.undoes _ hworld)
      refine ih others (fun j q hq => hps j q ?_) he₁ hworld₁
      rw [List.getElem?_append_left (List.getElem?_eq_some_iff.1 hq).1, hq]

end Rows

variable [IsPreorder W R] {sch : Schedule W} {sup : Supervisor W} {outer : Scope}
  {e e₁ e₂ : Engine W}

/-- Starting and announcing spoil nothing that the processes respect while they run. -/
theorem respected_waiting (hruns : ∀ p ∈ sup.processes, p.run.Respects R)
    (hannouncer : ∀ f, sup.announcer = some f → ∀ w, R w (f w)) (sch : Schedule W)
    (outer : Scope) (e : Engine W) :
    (waiting sch sup outer e).Respects R ∧ R e.world (waiting sch sup outer e).world := by
  have hstart : (sup.start outer e).1.Respects R := by
    intro t ht
    obtain ⟨⟨p, i⟩, hp, rfl⟩ := List.mem_map.1 ht
    exact hruns p (List.fst_mem_of_mem_zipIdx hp)
  obtain ⟨hlater, hworld⟩ := hstart.await sch fun x =>
    some (max x.now ((sup.start outer e).1.now + sup.startupDelay))
  unfold waiting announce
  dsimp only
  cases hannounces : sup.announcer with
  | none => exact ⟨hlater, hworld⟩
  | some f =>
    exact ⟨hlater.of_tasks rfl, IsTrans.trans _ _ _ hworld (hannouncer f hannounces _)⟩

/-- Taking the cause of the end changes neither the tasks nor the world. -/
theorem tasks_world_takeCause (sch : Schedule W) (outer : Scope) (e : Engine W) :
    (takeCause sch outer e).1.tasks = e.tasks ∧ (takeCause sch outer e).1.world = e.world := by
  rcases takeCause_cases sch outer e with ⟨heq, -⟩ | ⟨r, rest, -, -, heq⟩ <;> rw [heq] <;>
    exact ⟨rfl, rfl⟩

/-- **What the preparations did is taken back.**  When all processes are prepared, and still when
the wait for the end is over, the last condition holds; when the run has returned, the first one of
those on the way back does. -/
theorem Stops.undone (h : Stops sch sup outer e e₁ e₂) (he : e.Fresh)
    (hannouncer : ∀ f, sup.announcer = some f → ∀ w, R w (f w))
    (hstable : ∀ w w', R w w' → I sup.processes.length w → I sup.processes.length w')
    (hturn : ∀ w, I sup.processes.length w → J sup.processes.length w)
    (hstable' : ∀ w w', R w w' → J 0 w → J 0 w')
    (hps : ∀ k p, sup.processes[k]? = some p → Undoes R I J k p) (hworld : I 0 e.world)
    {result : Except HostError Unit} (hreturned : (sup.run sch outer e).2 = .returned result) :
    I sup.processes.length e₁.world ∧ I sup.processes.length e₂.world ∧
      J 0 (sup.run sch outer e).1.world := by
  have hruns (p : Component W) (hp : p ∈ sup.processes) : p.run.Respects R := by
    obtain ⟨k, hk⟩ := List.getElem?_of_mem hp
    exact (hps k p hk).runs
  have hplaces (j : Nat) (p : Component W) (hp : sup.processes[j]? = some p) :
      Undoes R I J (0 + j) p := by
    rw [Nat.zero_add]
    exact hps j p hp
  -- preparing
  obtain ⟨os, hvisits, hok⟩ := h.prepared
  obtain ⟨-, hprepared⟩ := prepared_of_visits hvisits hok hplaces (respects_publish he _) hworld
  rw [Nat.zero_add] at hprepared
  -- waiting
  obtain ⟨hstarted, hworld₁⟩ := respected_waiting hruns hannouncer sch outer e₁
  obtain ⟨hwaited, hworld₂⟩ := hstarted.await sch (causeAt outer)
  rw [h.wait] at hwaited hworld₂
  have hlast := hstable _ _ (IsTrans.trans _ _ _ hworld₁ hworld₂) hprepared
  refine ⟨hprepared, hlast, ?_⟩
  -- shutting down
  obtain ⟨htasks, htaken⟩ := tasks_world_takeCause sch outer e₂
  have hends := h.ends
  generalize sup.run sch outer e = r at hends hreturned ⊢
  cases hends with
  | unfit | hangs | panics => cases hreturned
  | @closed os e₃ _ hcloses =>
    have hbegins : J (0 + sup.processes.length) (closing (takeCause sch outer e₂).1).world := by
      rw [Nat.zero_add]
      exact htaken ▸ hturn _ hlast
    obtain ⟨he₃, hundone⟩ := undone_of_visits hcloses hplaces (hwaited.of_tasks htasks) hbegins
    -- draining
    have hcancelled : ((e₃.cancel (sup.start outer e₁).2.token).record .runCancelled).Respects R :=
      he₃.of_tasks rfl
    obtain ⟨-, hdrained⟩ := hcancelled.await sch
      (drainedAt ((takeCause sch outer e₂).1.now + sup.closeTimeout))
    have hcleared := congrArg Engine.world (cleared_eq (((e₃.cancel
      (sup.start outer e₁).2.token).record .runCancelled).await sch
      (drainedAt ((takeCause sch outer e₂).1.now + sup.closeTimeout))).1)
    exact hcleared ▸ hstable' _ _ hdrained hundone

/-- **What a run that fails to start leaves.**  The processes before the first one that cannot be
prepared have led from condition to condition; what is left then is what its failure leads to. -/
theorem FailsFirst.leaves {L : W → Prop} {index : Nat} {source : ComponentError}
    (h : FailsFirst sch sup outer e index source) (he : e.Fresh)
    (hps : ∀ k p, k < index → sup.processes[k]? = some p → Undoes R I J k p) (hworld : I 0 e.world)
    (hfails : ∀ p w, sup.processes[index]? = some p → I index w →
      p.prepare.Leads R (fun o w' => o = .failed source → L w') w) :
    L (sup.run sch outer e).1.world := by
  obtain ⟨e', hbreaks⟩ := h
  rw [run_of_breaks hbreaks]
  show L e'.world
  generalize hrow : sup.numbered = row at hbreaks
  obtain ⟨hvisits, hok, hcall, -⟩ := hbreaks
  obtain ⟨hp, rfl⟩ := numbered_split hrow
  have hlength : (sup.processes.take index).length = index :=
    List.length_take_of_le (Nat.le_of_lt (List.getElem?_eq_some_iff.1 hp).1)
  have hplaces (j : Nat) (q : Component W) (hq : (sup.processes.take index)[j]? = some q) :
      Undoes R I J (0 + j) q := by
    have hj : j < index := hlength ▸ (List.getElem?_eq_some_iff.1 hq).1
    rw [List.getElem?_take_of_lt hj] at hq
    rw [Nat.zero_add]
    exact hps j q hj hq
  obtain ⟨hbefore, hprepared⟩ :=
    prepared_of_visits hvisits hok hplaces (respects_publish he _) hworld
  rw [hlength, Nat.zero_add] at hprepared
  exact (call_leads hcall hbefore (hfails _ _ hp hprepared)).2 rfl

end ServiceHost.Supervisor
