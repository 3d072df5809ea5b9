import ServiceHost.Proofs.Lifecycle.Stepping
import ServiceHost.Proofs.Server.ShutdownBudget
/-!
Stopping a process on whose listener nobody has ever served.

A stop takes it from the listener whether there is anything to wait for: there is not if somebody
has come to the end of serving on it, or if it is bound and still waits for somebody to serve.  So
where nobody has ever served, it matters whether the listener is bound
(`Server.BuiltIn.leads_readied`).  A process that has been prepared stops at once; one that has not,
or could not bind its listener, or has been stopped before, waits in vain until its budget is used
up (`Server.stops_at_once_iff_bound`).
-/

namespace ServiceHost

open Engine Listener

variable {W : Type} {slot : Slot W Listener}

namespace Listener

variable {closeTimeout allowance : Option Nat} {finish : Bool → W → W × Outcome} {s : Scope}
  {e : Engine W} {r : Engine W × Returned}

/-- How a stop comes out in front of others that leave the listener alone: at once, or when the
budget is used up, or never if there is none. -/
inductive Undisturbed (slot : Slot W Listener) (closeTimeout allowance : Option Nat)
    (finish : Bool → W → W × Outcome) (e : Engine W) : Engine W × Returned → Prop
  | atOnce {e' : Engine W} {w : W} (idle : (slot.get e.world).stopsAtOnce = true)
      (now : e'.now = e.now) (alone : e'.Respects (Same slot))
      (listener : slot.get w = (slot.get e.world).requestStop.drop) :
      Undisturbed slot closeTimeout allowance finish e
        ({ e' with world := (finish true w).1 }, .outcome (finish true w).2)
  | late {d : Nat} {e' : Engine W} {w : W} (busy : (slot.get e.world).stopsAtOnce = false)
      (limit : budget closeTimeout allowance = some d) (now : e'.now = e.now + d)
      (alone : e'.Respects (Same slot))
      (listener : slot.get w = (slot.get e.world).requestStop.drop.force) :
      Undisturbed slot closeTimeout allowance finish e
        ({ e' with world := (finish false w).1 }, .outcome (finish false w).2)
  | never {e' : Engine W} (busy : (slot.get e.world).stopsAtOnce = false)
      (limit : budget closeTimeout allowance = none) :
      Undisturbed slot closeTimeout allowance finish e (e', .never)

theorem undisturbed_of_performs
    (h : Performs s allowance (stopping slot closeTimeout finish) e r)
    (alone : e.Respects (Same slot)) : Undisturbed slot closeTimeout allowance finish e r := by
  unfold stopping at h
  -- asking for the end
  obtain ⟨e₁, hnow₁, hdrifts₁, ⟨w₁, gives₁, h⟩ | ⟨w₁, o, gives₁, -⟩⟩ := h.act_cases alone
  case inr => cases gives₁
  obtain ⟨rfl, -⟩ := Prod.mk.inj gives₁
  -- giving the listener up
  obtain ⟨e₂, hnow₂, hdrifts₂, h⟩ := h.act_cases (hdrifts₁.respects.of_tasks rfl)
  have hasked : slot.get e₂.world = (slot.get e.world).requestStop := by
    rw [hdrifts₂.world, slot.get_modify, hdrifts₁.world]
  have hdropped : slot.get (slot.modify drop e₂.world) = (slot.get e.world).requestStop.drop := by
    rw [slot.get_modify, hasked]
  dsimp only at h
  rw [hasked] at h
  rcases h with ⟨w₂, gives₂, h⟩ | ⟨w₂, o, gives₂, rfl⟩
  case inr =>
    split at gives₂
    next hidle =>
      cases gives₂
      exact .atOnce hidle (hnow₂.trans hnow₁) hdrifts₂.respects hdropped
    next => cases gives₂
  split at gives₂
  next => cases gives₂
  next hbusy =>
  obtain ⟨rfl, -⟩ := Prod.mk.inj gives₂
  have hbusy' : (slot.get e.world).stopsAtOnce = false := Bool.eq_false_iff.2 hbusy
  have hgoesOn : (slot.get (slot.modify drop e₂.world)).stopped = false := by
    rw [hdropped]
    exact (Bool.or_eq_false_iff.1 hbusy').2
  -- waiting, for the budget alone
  have hwaited := h.pause_cases (hdrifts₂.respects.of_tasks rfl) (budget closeTimeout allowance)
    fun x hsame hlater => by
      have hstopped : (slot.get x.world).stopped = false := hsame ▸ hgoesOn
      cases hbudget : budget closeTimeout allowance <;>
        simp [readyAt, signalAt, hstopped, hbudget]
  rcases hwaited with ⟨d, e₃, hd, hnow₃, hdrifts₃, h⟩ | ⟨hnone, e₃, hdrifts₃, rfl⟩
  case inr => exact .never hbusy' hnone
  -- judging
  obtain ⟨e₄, hnow₄, hdrifts₄, h⟩ := h.act_cases hdrifts₃.respects
  have hlistener : slot.get e₄.world = (slot.get e.world).requestStop.drop :=
    hdrifts₄.world.trans (hdrifts₃.world.trans hdropped)
  rw [hlistener, ← hdropped, hgoesOn] at h
  rcases h with ⟨w₃, gives₃, -⟩ | ⟨w₃, o, gives₃, rfl⟩
  · cases gives₃
  · cases gives₃
    refine .late hbusy' hd ?_ hdrifts₄.respects ?_
    · rw [hnow₄, hnow₃]
      exact congrArg (· + d) (hnow₂.trans hnow₁)
    · rw [slot.get_modify, hlistener]

end Listener

namespace Server

variable {c : Component W} {closeTimeout : Option Nat} {late : Outcome} {e e' : Engine W} {b : Bool}

/-! ### What becomes of a listener on which nobody serves -/

/-- Has a preparation that ended so bound the listener?  It has if it succeeded, or failed only in
registering something afterwards. -/
def hasBound : Outcome → Bool
  | .ok => true
  | .failed (.host (.metrics _)) => true
  | _ => false

/-- What a preparation leaves of a listener. -/
def Readied (slot : Slot W Listener) (l : Listener) (o : Outcome) (w : W) : Prop :=
  slot.get w = if hasBound o then { l with waiting := true, everBound := true } else l

/-- Binding a listener readies it, if what comes after leaves it alone and ends like a preparation
that has bound it. -/
theorem leads_binding_readied {l : Listener} {address : String} {traffic : Traffic}
    {rest : Routine W} {w : W}
    (hw : slot.get w = l)
    (hrest : ∀ w, rest.Leads (Same slot) (fun o w' => hasBound o = true ∧ Same slot w w') w) :
    Routine.Leads (Same slot) (Readied slot l) (binding slot address traffic :: rest) w := by
  apply leads_binding
  · intro a fault w₁ hsame
    exact hsame.trans hw
  · intro w₁ refusal l' hsame hbind
    refine (hrest _).mono fun o w₂ ⟨hbound, hsame₂⟩ => ?_
    rw [Readied, hbound, if_pos rfl, hsame₂, slot.get_put]
    rw [show slot.get w₁ = l from hsame.trans hw] at hbind
    rcases bind_cases l address refusal with hbound' | ⟨a, fault, hfault⟩
    · exact Except.ok.inj (hbind.symm.trans hbound')
    · cases hbind.symm.trans hfault

/-- So does a check before it that does not end like that. -/
theorem leads_check_readied {fault? : Option Outcome} {address : String} {traffic : Traffic} {w : W}
    (hfault : ∀ o, fault? = some o → hasBound o = false) :
    Routine.Leads (Same slot) (Readied slot (slot.get w))
      [.act (fun _ w => (w, fault?)), binding slot address traffic] w := by
  refine .act (fun _ w₁ w₂ o hsame hends => ?_) fun _ w₁ w₂ hsame hgoesOn => ?_
  · obtain ⟨rfl, ho⟩ := Prod.mk.inj hends
    rw [Readied, hfault o ho]
    exact hsame
  · obtain ⟨rfl, -⟩ := Prod.mk.inj hgoesOn
    exact leads_binding_readied hsame fun w => .nil ⟨rfl, rfl⟩

/-- **Preparing a process binds its listener or leaves it alone**, and what it returns tells
which. -/
theorem BuiltIn.leads_readied (h : BuiltIn slot c closeTimeout late) (w : W) :
    c.prepare.Leads (Same slot) (Readied slot (slot.get w)) w := by
  cases h with
  | grpc s =>
    refine leads_check_readied fun o ho => ?_
    obtain ⟨fault, hfault, rfl⟩ := Option.map_eq_some_iff.1 ho
    unfold Rpc.Server.descriptionFault? at hfault
    split at hfault
    · obtain ⟨_, -, rfl⟩ := Option.map_eq_some_iff.1 hfault
      rfl
    · cases hfault
  | gateway s =>
    refine leads_check_readied fun o ho => ?_
    unfold Gateway.Server.routesFault? at ho
    split at ho
    · cases ho
    next fault _ =>
      obtain rfl := Option.some.inj ho
      cases fault <;> rfl
  | profiling => exact leads_binding_readied rfl fun w => .nil ⟨rfl, rfl⟩
  | metrics s state apart =>
    -- registering the version leaves the listener alone, and its failure comes after the binding
    refine leads_binding_readied rfl fun w => .act (fun _ w₁ w₂ o hsame hends => ?_)
      fun _ w₁ w₂ hsame hgoesOn => .nil ⟨rfl, ?_⟩
    · obtain ⟨rfl, ho⟩ := Prod.mk.inj hends
      obtain ⟨fault, -, rfl⟩ := Option.map_eq_some_iff.1 ho
      exact ⟨rfl, (apart _ _).trans hsame⟩
    · obtain ⟨rfl, -⟩ := Prod.mk.inj hgoesOn
      exact (apart _ _).trans hsame

/-- A run for which no listener is bound leaves it alone. -/
theorem BuiltIn.leads_refused (h : BuiltIn slot c closeTimeout late) {w : W}
    (hw : (slot.get w).waiting = false) : c.run.Leads (Same slot) (fun _ => Same slot w) w := by
  obtain ⟨party, ⟨hrun, lead, name, traffic, rfl⟩, hfair⟩ := h.exists_party
  have hlead : lead.Respects (Same slot) := hfair
  rw [← hrun]
  refine hlead.leads_append (fun _ _ _ _ _ _ hsame _ => hsame) fun w₁ hsame => ?_
  have hnone {w₂ : W} (hsame₂ : Same slot w₁ w₂) : (slot.get w₂).take? = none := by
    rw [hsame₂, hsame, take?, hw]
    rfl
  refine .act (fun _ w₂ w₃ o hsame₂ hends => ?_) fun _ w₂ w₃ hsame₂ hgoesOn => ?_
  · rw [hnone hsame₂] at hends
    cases hends
    exact hsame₂.trans hsame
  · rw [hnone hsame₂] at hgoesOn
    cases hgoesOn

/-! ### Stopping what nobody serves on -/

/-- The states of a process on whose listener nobody has ever served, beside others that leave the
listener alone.  The flag tells whether a preparation has bound it since the last shutdown. -/
inductive Unserved (slot : Slot W Listener) (c : Component W) : Bool → Engine W → Prop
  | new {e : Engine W} (unused : slot.get e.world = {}) (alone : e.Respects (Same slot)) :
      Unserved slot c false e
  | prepared {b : Bool} {e e' : Engine W} {sch : Schedule W} {index : Nat} {scope : Scope}
      {o : Outcome} (before : Unserved slot c b e)
      (call : e.call sch .prepare index scope c.prepare = (e', .outcome o)) :
      Unserved slot c (b || hasBound o) e'
  | refused {e e' : Engine W} {sch : Schedule W} {index : Nat} {scope : Scope} {o : Outcome}
      (before : Unserved slot c false e)
      (call : e.call sch .run index scope c.run = (e', .outcome o)) : Unserved slot c false e'
  | closed {b : Bool} {e e' : Engine W} {sch : Schedule W} {index : Nat} {scope : Scope}
      {o : Outcome} (before : Unserved slot c b e)
      (call : e.call sch .close index scope c.close = (e', .outcome o)) : Unserved slot c false e'
  | others {b : Bool} {e e' : Engine W} (before : Unserved slot c b e)
      (drifts : Drifts (Same slot) e e') : Unserved slot c b e'

/-- How a shutdown comes out that nobody disturbs. -/
inductive Closes (slot : Slot W Listener) (closeTimeout allowance : Option Nat) (late : Outcome)
    (e : Engine W) : Engine W × Returned → Prop
  | atOnce {e' : Engine W} (idle : (slot.get e.world).stopsAtOnce = true) (now : e'.now = e.now)
      (alone : e'.Respects (Same slot))
      (listener : slot.get e'.world = (slot.get e.world).requestStop.drop) :
      Closes slot closeTimeout allowance late e (e', .outcome .ok)
  | late {d : Nat} {e' : Engine W} (busy : (slot.get e.world).stopsAtOnce = false)
      (limit : budget closeTimeout allowance = some d) (now : e'.now = e.now + d)
      (alone : e'.Respects (Same slot))
      (listener : slot.get e'.world = (slot.get e.world).requestStop.drop.force) :
      Closes slot closeTimeout allowance late e (e', .outcome late)
  | never {e' : Engine W} (busy : (slot.get e.world).stopsAtOnce = false)
      (limit : budget closeTimeout allowance = none) :
      Closes slot closeTimeout allowance late e (e', .never)

theorem BuiltIn.closes (h : BuiltIn slot c closeTimeout late) (sch : Schedule W) (index : Nat)
    (scope : Scope) (alone : e.Respects (Same slot)) :
    Closes slot closeTimeout (scope.remaining e.now) late e
      (e.call sch .close index scope c.close) := by
  obtain ⟨finish, hclose, hfair, hok, hlate⟩ := h.close_eq
  rw [hclose]
  obtain ⟨r, hperforms, hcall⟩ := call_cases sch .close index scope
    (stopping slot closeTimeout finish) e
  have hundisturbed := undisturbed_of_performs hperforms (alone.of_tasks rfl)
  cases hundisturbed with
  | @atOnce e' w idle now alone listener =>
    rcases hcall with ⟨e₁, o, hr, hcall⟩ | ⟨e₁, hr, -⟩
    · cases hr
      rw [hcall, hok]
      exact .atOnce idle now (alone.of_tasks rfl) ((hfair true w).trans listener)
    · cases hr
  | @late d e' w busy limit now alone listener =>
    rcases hcall with ⟨e₁, o, hr, hcall⟩ | ⟨e₁, hr, -⟩
    · cases hr
      rw [hcall, hlate]
      exact .late busy limit now (alone.of_tasks rfl) ((hfair false w).trans listener)
    · cases hr
  | never busy limit =>
    rcases hcall with ⟨e₁, o, hr, -⟩ | ⟨e₁, hr, hcall⟩
    · cases hr
    · rw [hcall]
      exact .never busy limit

/-- The listener waits for somebody to serve on it just in case it has been bound since the last
shutdown, and nobody has come to the end of serving. -/
theorem Unserved.listener (h : BuiltIn slot c closeTimeout late) (he : Unserved slot c b e) :
    e.Respects (Same slot) ∧ (slot.get e.world).waiting = b ∧
      (slot.get e.world).stopped = false := by
  induction he with
  | new unused alone => exact ⟨alone, by rw [unused], by rw [unused]⟩
  | @prepared b e e' sch index scope o _ call ih =>
    obtain ⟨alone, hwaiting, hstopped⟩ := ih
    obtain ⟨halone, hreadied⟩ := call_leads call alone (h.leads_readied e.world)
    refine ⟨halone, ?_⟩
    rw [hreadied]
    cases hasBound o with
    | true => exact ⟨by simp, hstopped⟩
    | false => exact ⟨by simpa using hwaiting, hstopped⟩
  | refused _ call ih =>
    obtain ⟨alone, hwaiting, hstopped⟩ := ih
    obtain ⟨halone, hsame⟩ := call_leads call alone (h.leads_refused hwaiting)
    rw [hsame]
    exact ⟨halone, hwaiting, hstopped⟩
  | @closed b e e' sch index scope o _ call ih =>
    obtain ⟨alone, hwaiting, hstopped⟩ := ih
    have hcloses := h.closes sch index scope alone
    rw [call] at hcloses
    cases hcloses with
    | atOnce _ _ halone listener | late _ _ _ halone listener =>
      rw [listener]
      exact ⟨halone, rfl, hstopped⟩
  | others _ drifts ih =>
    rw [drifts.world]
    exact ⟨drifts.respects, ih.2⟩

/-- **When a process on whose listener nobody has ever served can be shut down at once**: just in
case a preparation has bound the listener since the last shutdown.  The shutdown then succeeds.
Otherwise it uses up its budget and comes back as if somebody still served, and without a budget it
never comes back.  Either way the next one finds the listener given up. -/
theorem stops_at_once_iff_bound (h : BuiltIn slot c closeTimeout late) (he : Unserved slot c b e)
    (sch : Schedule W) (index : Nat) (scope : Scope) :
    (b = true → ∃ e', e.call sch .close index scope c.close = (e', .outcome .ok) ∧
      e'.now = e.now ∧ Unserved slot c false e') ∧
    (b = false → ∀ d, budget closeTimeout (scope.remaining e.now) = some d →
      ∃ e', e.call sch .close index scope c.close = (e', .outcome late) ∧ e'.now = e.now + d ∧
        Unserved slot c false e') ∧
    (b = false → budget closeTimeout (scope.remaining e.now) = none →
      ∃ e', e.call sch .close index scope c.close = (e', .never)) := by
  obtain ⟨alone, hwaiting, hstopped⟩ := he.listener h
  have hcloses := h.closes sch index scope alone
  have hstops : (slot.get e.world).stopsAtOnce = b := by
    rw [stopsAtOnce, hwaiting, hstopped, Bool.or_false]
  have hclosed {e' : Engine W} {o : Outcome}
      (hcall : e.call sch .close index scope c.close = (e', .outcome o)) :
      Unserved slot c false e' := he.closed hcall
  generalize hcall : e.call sch .close index scope c.close = r at hcloses hclosed
  cases hcloses with
  | atOnce idle now =>
    obtain rfl : b = true := hstops.symm.trans idle
    refine ⟨fun _ => ⟨_, rfl, now, hclosed rfl⟩, fun hb => ?_, fun hb => ?_⟩ <;> cases hb
  | late busy limit now =>
    obtain rfl : b = false := hstops.symm.trans busy
    refine ⟨fun hb => ?_, fun _ d hd => ?_, fun _ hnone => ?_⟩
    · cases hb
    · obtain rfl := Option.some.inj (limit.symm.trans hd)
      exact ⟨_, rfl, now, hclosed rfl⟩
    · cases limit.symm.trans hnone
  | never busy limit =>
    obtain rfl : b = false := hstops.symm.trans busy
    refine ⟨fun hb => ?_, fun _ d hd => ?_, fun _ _ => ⟨_, rfl⟩⟩
    · cases hb
    · cases limit.symm.trans hd

theorem unserved_new : Unserved onlyListener endlessProfiles false { world := {} } :=
  .new rfl (by simp [Respects])

theorem unserved_preparedProfiles : Unserved onlyListener endlessProfiles true preparedProfiles :=
  unserved_new.prepared (Prod.ext rfl rfl :
    call .usual .prepare 0 ⟨[0], none⟩ endlessProfiles.prepare { world := {} } =
      (preparedProfiles, .outcome .ok))

/-- Profiles that nobody has asked for: when they have been prepared, their shutdown succeeds at
once; when they have not, it takes all the time that its scope has left. -/
theorem stops_at_once_iff_bound_profiles :
    (∃ e', preparedProfiles.call .usual .close 0 ⟨[0], none⟩ endlessProfiles.close =
      (e', .outcome .ok) ∧ e'.now = preparedProfiles.now) ∧
    ∃ e', ({ world := {} } : Engine Listener).call .usual .close 0 ⟨[0], some 6⟩
      endlessProfiles.close = (e', .outcome (inTimeOrFail Profiling.Server.name false)) ∧
        e'.now = 0 + 6 := by
  have hbuiltIn : BuiltIn onlyListener endlessProfiles none
      (inTimeOrFail Profiling.Server.name false) := .profiling { address := ":8080" } _
  obtain ⟨e₁, hcall₁, hnow₁, -⟩ :=
    (stops_at_once_iff_bound hbuiltIn unserved_preparedProfiles .usual 0 ⟨[0], none⟩).1 rfl
  obtain ⟨e₂, hcall₂, hnow₂, -⟩ :=
    (stops_at_once_iff_bound hbuiltIn unserved_new .usual 0 ⟨[0], some 6⟩).2.1 rfl 6 rfl
  exact ⟨⟨e₁, hcall₁, hnow₁⟩, e₂, hcall₂, hnow₂⟩

/-- Profiles that have been prepared and shut down. -/
def closedProfiles : Engine Listener :=
  (call .usual .close 0 ⟨[0], none⟩ endlessProfiles.close preparedProfiles).1

/-- Nobody has ever served, and a shutdown does not succeed at once: it takes until its deadline at
6, and has no end without a deadline. -/
def WaitsInVain (e : Engine Listener) : Prop :=
  Unserved onlyListener endlessProfiles false e ∧
    (∃ e', e.call .usual .close 0 ⟨[0], some 6⟩ endlessProfiles.close =
      (e', .outcome (inTimeOrFail Profiling.Server.name false)) ∧ e.now = 0 ∧ e'.now = 6) ∧
    ∃ e', e.call .usual .close 0 ⟨[0], none⟩ endlessProfiles.close = (e', .never)

/-- So it is with profiles that have never been prepared, and with profiles that have been shut down
before. -/
theorem unserved_shutdown_waits : WaitsInVain { world := {} } ∧ WaitsInVain closedProfiles := by
  have hclosed : Unserved onlyListener endlessProfiles false closedProfiles :=
    unserved_preparedProfiles.closed (Prod.ext rfl rfl :
      call .usual .close 0 ⟨[0], none⟩ endlessProfiles.close preparedProfiles =
        (closedProfiles, .outcome .ok))
  exact ⟨⟨unserved_new, ⟨_, Prod.ext rfl rfl, rfl, rfl⟩, _, Prod.ext rfl rfl⟩,
    hclosed, ⟨_, Prod.ext rfl rfl, rfl, rfl⟩, _, Prod.ext rfl rfl⟩

end Server

end ServiceHost
