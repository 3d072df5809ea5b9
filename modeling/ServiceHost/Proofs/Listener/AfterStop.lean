import ServiceHost.Proofs.Listener.Scenes
/-!
After a stop nothing serves.

In every scene in which some stop of a listener has come back, the listener is gone and the end has
been asked for.  An attempt to serve that had not taken the listener by then never takes it: it is
refused as soon as it comes to it.  One that had taken it has ended if the stop said that the end
came in time; otherwise it is forced to end, and does so before any more time passes.

Main result: `nothing_serves_after_stop`.
-/

namespace ServiceHost.Listener

open Relation Scene

variable {W : Type} {slot : Slot W Listener}

/-! ### Attempts to serve -/

/-- An attempt to serve has taken the listener: the taking is no longer among what is left of it. -/
def HasTaken (slot : Slot W Listener) (name : String) (traffic : Traffic) (t : Task W) : Prop :=
  t.code.length < (serving slot name traffic).length

section Attempts

variable {lead : Routine W} {name : String} {traffic : Traffic} {parties : List (Party W)}
  {caller : Stand} {e e' : Engine W} {k : Nat} {t t' : Task W}

/-- An attempt that has taken the listener and has not ended serves, and if it is forced to end, it
can act at once. -/
theorem Stands.serving_of_hasTaken {p : Stand}
    (h : Stands slot (.serve lead name traffic) p t.code t.outcome)
    (htaken : HasTaken slot name traffic t) (hlive : t.outcome = none) :
    p = .serving ∧ ((slot.get e.world).forced = true → e.taskReadyAt t = some e.now) := by
  have haway : p ≠ .away := h.length_lt_iff.1 htaken
  obtain ⟨index, scope, code, since, allowance, started, outcome⟩ := t
  obtain rfl : outcome = none := hlive
  cases h with
  | before => exact absurd rfl haway
  | @serving _ _ _ n within =>
    refine ⟨rfl, fun hforced => ?_⟩
    unfold Engine.taskReadyAt
    cases started with
    | false => rfl
    | true =>
      -- both pauses end when serving is forced to
      match n, within with
      | 0, _ =>
        have hgiven : e.signalAt scope since allowance
            (.holds fun w => (slot.get w).isEnding) = some e.now := by
          simp [Engine.signalAt, isEnding, hforced]
        exact Engine.readyAt_of_given List.mem_cons_self hgiven
          ((Listener.serving slot name traffic).drop 2)
      | 2, _ =>
        have hgiven : e.signalAt scope since allowance
            (.holds fun w => (slot.get w).forced) = some e.now := by
          simp [Engine.signalAt, hforced]
        exact Engine.readyAt_of_given (List.mem_cons_of_mem _ List.mem_cons_self) hgiven
          ((Listener.serving slot name traffic).drop 4)
      | 1, _ | 3, _ => rfl

/-- An attempt that has come to the listener and ends there is refused. -/
theorem Stands.eq_refusal {p : Stand} {code : Routine W} {end' : Outcome}
    (h : Stands slot (.serve lead name traffic) p code (some end'))
    (hcode : code = Listener.serving slot name traffic) : end' = refusal name := by
  have haway : p = .away := by
    by_contra hp
    have hlt := h.length_lt_iff.2 hp
    rw [hcode] at hlt
    exact Nat.lt_irrefl _ hlt
  obtain rfl := haway
  cases h with
  | before part refused => exact refused (List.append_left_eq_self.1 hcode) end' rfl

/-- Once the listener is gone, an attempt that has not taken it does not take it. -/
theorem Company.not_hasTaken (h : Company slot parties caller e)
    (hfair : ∀ party ∈ parties, party.Fair slot) (hstirs : Engine.Stirs e e')
    (hgone : (slot.get e.world).waiting = false)
    (hparty : parties[k]? = some (.serve lead name traffic)) (ht : e.tasks[k]? = some t)
    (huntaken : ¬ HasTaken slot name traffic t) (ht' : e'.tasks[k]? = some t') :
    ¬ HasTaken slot name traffic t' := by
  obtain ⟨u, hu, hbecomes⟩ := hstirs.task ht
  obtain rfl := Option.some.inj (hu.symm.trans ht')
  rcases hbecomes with rfl | ⟨hlive, ⟨hcode, -⟩ | ⟨m, hturn⟩⟩
  · exact huntaken
  · unfold HasTaken
    rwa [hcode]
  · -- on its turn it could only move by taking a listener that is not there
    obtain ⟨stands, hcast, -⟩ := h
    obtain ⟨p, -, hstands⟩ := hcast.exists_stand k _ t hparty ht
    obtain rfl : p = .away := by
      by_contra hp
      exact huntaken (hstands.length_lt_iff.2 hp)
    obtain ⟨p', hstands', hmove⟩ :=
      (hlive ▸ hstands).turn (hfair _ (List.mem_of_getElem? hparty)) hturn
    intro htaken
    have hp' : p' ≠ .away := hstands'.length_lt_iff.1 htaken
    generalize slot.get e.world = l, slot.get e'.world = l' at hmove hgone
    cases hmove with
    | stay => exact hp' rfl
    | take taken => simp [(take?_eq_some taken).1] at hgone
    | ask => cases hstands'

end Attempts

/-! ### Stops -/

/-- What a stop that has come back can rely on, and what it said. -/
theorem Stands.verdict {closeTimeout : Option Nat} {finish : Bool → W → W × Outcome} {p : Stand}
    {code : Routine W} {o : Outcome} (h : Stands slot (.stop closeTimeout finish) p code (some o)) :
    p.hasAsked = true ∧ p.hasGivenUp = true ∧ ∃ inTime w, o = (finish inTime w).2 ∧
      (inTime = true → p = .dropped ∨ p = .answered true) ∧
      (inTime = false → p = .answered false) := by
  cases h with
  | dropped => exact ⟨rfl, rfl, true, _, rfl, fun _ => .inl rfl, by simp⟩
  | @answered _ _ _ inTime w =>
    exact ⟨rfl, rfl, inTime, w, rfl, fun h => .inr (by rw [h]), fun h => by rw [h]⟩

/-! ### Attempts and stops together -/

/-- The task at a place is an attempt to serve. -/
def Attempts (s : Scene W) (k : Nat) (name : String) (traffic : Traffic) (t : Task W) : Prop :=
  ∃ lead, s.Plays k (.serve lead name traffic) t

/-- Before any more time passes, the task at a place has come to an end of which `Q` holds. -/
def EndsAtOnce (slot : Slot W Listener) (s : Scene W) (k : Nat) (Q : Outcome → Prop) : Prop :=
  ∀ s', Reaches slot s s' → s.engine.now < s'.engine.now → ∃ o, s'.engine.ended? k = some o ∧ Q o

/-- A scene in which a stop has come back, and what follows from what it said. -/
structure Over (slot : Slot W Listener) (inTime : Bool) (s : Scene W) : Prop where
  /-- The listener is gone. -/
  gone : (slot.get s.engine.world).waiting = false
  /-- The end has been asked for. -/
  requested : (slot.get s.engine.world).stopRequested = true
  /-- An attempt that has not taken the listener never does. -/
  never : ∀ k name traffic t, Attempts s k name traffic t → ¬ HasTaken slot name traffic t →
    ∀ s' t', Reaches slot s s' → Attempts s' k name traffic t' → ¬ HasTaken slot name traffic t'
  /-- It is refused when it comes to the listener. -/
  refused : ∀ k name traffic t, Attempts s k name traffic t → t.code = serving slot name traffic →
    (∀ o, t.outcome = some o → o = refusal name) ∧ EndsAtOnce slot s k (· = refusal name)
  /-- If the end came in time, every attempt that had taken the listener has ended. -/
  ended : inTime = true → ∀ k name traffic t, Attempts s k name traffic t →
    HasTaken slot name traffic t → t.outcome ≠ none
  /-- One that has not ended is forced to, which it does at its next step. -/
  forced : ∀ k name traffic t, Attempts s k name traffic t → HasTaken slot name traffic t →
    t.outcome = none → inTime = false ∧ (slot.get s.engine.world).forced = true ∧
      s.engine.taskReadyAt t = some s.engine.now ∧ EndsAtOnce slot s k fun _ => True

section Proofs

variable {s s' : Scene W} {k : Nat} {name : String} {traffic : Traffic} {lead : Routine W}
  {t t' : Task W}

/-- Once the listener is gone, an attempt that has not taken it never does. -/
theorem not_hasTaken_of_reaches (h : Sound slot s) (hreaches : Reaches slot s s')
    (hgone : (slot.get s.engine.world).waiting = false)
    (ht : s.Plays k (.serve lead name traffic) t) (huntaken : ¬ HasTaken slot name traffic t)
    (ht' : s'.Plays k (.serve lead name traffic) t') : ¬ HasTaken slot name traffic t' := by
  induction hreaches generalizing t' with
  | refl => exact ht.eq ht' ▸ huntaken
  | @tail x y hbefore hlast ih =>
    obtain ⟨hsound, hlater⟩ := h.reaches hbefore
    obtain ⟨u, hu, -⟩ := Reaches.plays hbefore ht
    have hgone' : (slot.get x.engine.world).waiting = false :=
      hlater.gone hgone
    obtain ⟨u', hu', rfl | ⟨-, -, hstirs⟩⟩ := hlast.plays hu
    · exact hu'.eq ht' ▸ ih hu
    · exact hsound.company.not_hasTaken hsound.fair hstirs hgone' hu.party hu.task (ih hu) ht'.task

/-- Where the listener is gone, an attempt that comes to it has not ended or is refused, and it has
ended when time has passed. -/
theorem refused_of_gone (h : Sound slot s) (hgone : (slot.get s.engine.world).waiting = false)
    (ht : s.Plays k (.serve lead name traffic) t) (hcode : t.code = serving slot name traffic) :
    (∀ o, t.outcome = some o → o = refusal name) ∧ EndsAtOnce slot s k (· = refusal name) := by
  have huntaken : ¬ HasTaken slot name traffic t := by simp [HasTaken, hcode]
  -- it stays there, and if it ends it is refused
  have hstays {s' : Scene W} {t' : Task W} (hreaches : Reaches slot s s')
      (ht' : s'.Plays k (.serve lead name traffic) t') :
      t'.code = serving slot name traffic ∧ ∀ o, t'.outcome = some o → o = refusal name := by
    obtain ⟨u, hu, hsuffix, -⟩ := hreaches.plays ht
    obtain rfl := ht'.eq hu
    rw [hcode] at hsuffix
    have hlength := not_hasTaken_of_reaches h hreaches hgone ht huntaken ht'
    have hcode' := hsuffix.eq_of_length_le (Nat.le_of_not_lt hlength)
    obtain ⟨stands, hcast, -⟩ := (h.reaches hreaches).1.company
    obtain ⟨p, -, hstands⟩ := hcast.exists_stand k _ _ ht'.party ht'.task
    exact ⟨hcode', fun o ho => (ho ▸ hstands).eq_refusal hcode'⟩
  refine ⟨(hstays .refl ht).2, fun s' hreaches hlater => ?_⟩
  obtain ⟨t', ht', -⟩ := hreaches.plays ht
  have hended := ended_of_ready ht (fun s'' t'' hreaches' ht'' hlive => ?_) hreaches hlater ht'
  · obtain ⟨o, ho⟩ := Option.ne_none_iff_exists'.1 hended
    exact ⟨o, by rw [Engine.ended?, ht'.task]; exact ho, (hstays hreaches ht').2 o ho⟩
  · unfold Engine.taskReadyAt
    rw [hlive, (hstays hreaches' ht'').1]
    cases t''.started <;> rfl

/-- An attempt that is forced to end can act at once until it has ended. -/
theorem ready_of_forced (h : Sound slot s) (hforced : (slot.get s.engine.world).forced = true)
    (ht : s.Plays k (.serve lead name traffic) t) (htaken : HasTaken slot name traffic t)
    (hlive : t.outcome = none) : s.engine.taskReadyAt t = some s.engine.now := by
  obtain ⟨stands, hcast, -⟩ := h.company
  obtain ⟨p, -, hstands⟩ := hcast.exists_stand k _ t ht.party ht.task
  exact (hstands.serving_of_hasTaken htaken hlive).2 hforced

/-- An attempt that is forced to end has ended when time has passed. -/
theorem endsAtOnce_of_forced (h : Sound slot s) (hforced : (slot.get s.engine.world).forced = true)
    (ht : s.Plays k (.serve lead name traffic) t) (htaken : HasTaken slot name traffic t) :
    EndsAtOnce slot s k fun _ => True := by
  intro s' hreaches hlater
  obtain ⟨t', ht', -⟩ := hreaches.plays ht
  have hended := ended_of_ready ht (fun s'' t'' hreaches' ht'' hlive => ?_) hreaches hlater ht'
  · obtain ⟨o, ho⟩ := Option.ne_none_iff_exists'.1 hended
    exact ⟨o, by rw [Engine.ended?, ht'.task]; exact ho, trivial⟩
  · obtain ⟨hsound, hlater'⟩ := h.reaches hreaches'
    obtain ⟨u, hu, hsuffix, -⟩ := hreaches'.plays ht
    obtain rfl := ht''.eq hu
    have htaken' : HasTaken slot name traffic u := Nat.lt_of_le_of_lt hsuffix.length_le htaken
    exact ready_of_forced hsound (hlater'.forced hforced) ht'' htaken' hlive

/-- **After a stop nothing serves.**  Let a listener be bound, and let any number of parties join at
any time, to serve, to stop it, or to do something else.  Whatever happens: once a stop has come
back, the listener is gone, nobody who had not taken it serves, and whoever still does is forced to
end, which happens only if the stop said that the end did not come in time. -/
theorem nothing_serves_after_stop {address : String} {answer : Option SystemFault} {e : Engine W}
    (bound : Listener.bind {} address answer = .ok (slot.get e.world)) (alone : e.tasks = [])
    (reached : Reaches slot ⟨[], e⟩ s) {closeTimeout : Option Nat}
    {finish : Bool → W → W × Outcome} (stops : s.Plays k (.stop closeTimeout finish) t)
    {o : Outcome} (returned : t.outcome = some o) :
    ∃ inTime w, o = (finish inTime w).2 ∧ Over slot inTime s := by
  obtain ⟨hsound, -⟩ := (sound_of_bound bound alone).reaches reached
  obtain ⟨stands, hcast, horder⟩ := hsound.company
  obtain ⟨p, hp, hstands⟩ := hcast.exists_stand k _ t stops.party stops.task
  obtain ⟨hasked, hgivenUp, inTime, w, ho, hyes, hno⟩ := (returned ▸ hstands).verdict
  have hmem : p ∈ (.away :: stands : List Stand) := List.mem_cons_of_mem _ (List.mem_of_getElem? hp)
  have hfits := horder.fits p hmem
  have hgone := hfits.givenUp hgivenUp
  -- nobody serves if the end came in time
  have hnone (hinTime : inTime = true) : .serving ∉ (.away :: stands : List Stand) := by
    rcases hyes hinTime with rfl | rfl
    · exact horder.not_serving hmem rfl (by simp)
    · exact horder.not_serving_of_stopped (hfits.inTime rfl)
  -- an attempt that has taken the listener and has not ended serves
  have hserving {j : Nat} {name : String} {traffic : Traffic} {u : Task W}
      (hu : Attempts s j name traffic u) (htaken : HasTaken slot name traffic u)
      (hlive : u.outcome = none) : .serving ∈ (.away :: stands : List Stand) := by
    obtain ⟨lead, hu⟩ := hu
    obtain ⟨q, hq, hstands'⟩ := hcast.exists_stand j _ u hu.party hu.task
    obtain ⟨rfl, -⟩ := hstands'.serving_of_hasTaken (e := s.engine) htaken hlive
    exact List.mem_cons_of_mem _ (List.mem_of_getElem? hq)
  refine ⟨inTime, w, ho, hgone, hfits.asked hasked, ?_, ?_, ?_, ?_⟩
  · rintro j name traffic u ⟨lead, hu⟩ huntaken s' u' hreaches ⟨lead', hu'⟩
    obtain ⟨v, hv, -⟩ := hreaches.plays hu
    obtain rfl := hu'.eq hv
    exact not_hasTaken_of_reaches hsound hreaches hgone hu huntaken hv
  · rintro j name traffic u ⟨lead, hu⟩ hcode
    exact refused_of_gone hsound hgone hu hcode
  · intro hinTime j name traffic u hu htaken hlive
    exact hnone hinTime (hserving hu htaken hlive)
  · intro j name traffic u hu htaken hlive
    have hlate : inTime = false := Bool.eq_false_iff.2 fun hinTime =>
      hnone hinTime (hserving hu htaken hlive)
    have hforced := hfits.late (hno hlate)
    obtain ⟨lead, hu⟩ := hu
    exact ⟨hlate, hforced, ready_of_forced hsound hforced hu htaken hlive,
      endsAtOnce_of_forced hsound hforced hu htaken⟩

end Proofs

/-- A world that is nothing but a listener. -/
def onlyListener : Slot Listener Listener where
  get l := l
  put l _ := l

/-- The end of a stop that only tells whether it came in time. -/
def tell (inTime : Bool) (l : Listener) : Listener × Outcome :=
  (l, inTimeOrFail "pprof" inTime)

/-- One serves without ever coming to an end, one wants to serve too, and a stop waits for five
units of time and gives up. -/
def lateStop : Scene Listener where
  parties := [.serve [] "pprof" { linger := none }, .serve [] "pprof" {}, .stop (some 5) tell]
  engine :=
    let e : Engine Listener := { world := { waiting := true, everBound := true } }
    let e := (e.spawn 0 ⟨[0], none⟩ (serving onlyListener "pprof" { linger := none })).1
    let e := (e.spawn 1 ⟨[1], none⟩ (serving onlyListener "pprof" {})).1
    let e := (e.spawn 2 ⟨[2], none⟩ (stopping onlyListener (some 5) tell)).1
    (e.await .usual fun e => if (e.ended? 2).isSome then some e.now else none).1

/-- In that scene the second party is refused, and so is whoever serves after it; the stop reports
that its time was up. -/
theorem nothing_serves_after_stop_late :
    lateStop.engine.ended? 1 = some (refusal "pprof") ∧
      lateStop.engine.ended? 2 = some (inTimeOrFail "pprof" false) ∧
      Over onlyListener false lateStop := by
  have hlead : Routine.Respects (Same onlyListener) [] := by simp [Routine.Respects]
  have hjoins : Reaches onlyListener ⟨[], { world := { waiting := true, everBound := true } }⟩ _ :=
    ((ReflTransGen.refl.tail (.joins (.serve [] "pprof" { linger := none }) hlead 0 ⟨[0], none⟩)).tail
      (.joins (.serve [] "pprof" {}) hlead 1 ⟨[1], none⟩)).tail
      (.joins (.stop (some 5) tell) (fun _ _ => rfl) 2 ⟨[2], none⟩)
  have hreached : Reaches onlyListener _ lateStop := hjoins.trans <|
    reaches_await .usual (fun e t ht => by
      split at ht
      · exact Nat.le_of_eq (Option.some.inj ht)
      · cases ht) _
  have hbound : Listener.bind {} ":8080" = .ok { waiting := true, everBound := true } := by decide
  have hended : lateStop.engine.ended? 2 = some (inTimeOrFail "pprof" false) := by decide
  obtain ⟨t, ht, ho⟩ := Option.bind_eq_some_iff.1 hended
  obtain ⟨inTime, w, hsaid, hover⟩ :=
    nothing_serves_after_stop hbound rfl hreached (k := 2) ⟨rfl, ht⟩ ho
  cases inTime with
  | false => exact ⟨by decide, hended, hover⟩
  | true => cases hsaid

end ServiceHost.Listener
