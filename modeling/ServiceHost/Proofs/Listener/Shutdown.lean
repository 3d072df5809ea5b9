import ServiceHost.Proofs.Listener.AfterStop
import ServiceHost.Proofs.Listener.Leading
/-!
A shutdown in front of the parties of a listener.

Here the one who stops the listener is the caller.  Its routine has a limit, which is its budget
(`limit?_stopping`), so it comes back in time.  When it comes back, it says that the end did not
come in time just in case somebody still serves, and then the budget has been used up
(`Company.performs_stopping`, `shutsDown_of_company`).
-/

namespace ServiceHost.Listener

open Relation Scene Engine

variable {W : Type} {slot : Slot W Listener}

/-- The wait for the end is over when serving has ended, or when the budget is used up. -/
theorem elapsed_of_goesOn {closeTimeout allowance : Option Nat} {finish : Bool → W → W × Outcome}
    {e : Engine W} {s : Scope} {since time : Nat}
    (hable : e.readyAt s since allowance ((stopping slot closeTimeout finish).drop 2) = some time)
    (hgoesOn : (slot.get e.world).stopped = false) :
    ∃ d, budget closeTimeout allowance = some d ∧ since + d ≤ time := by
  obtain ⟨signal, hsignal, hgiven⟩ := List.mem_filterMap.1 (List.min?_eq_some_iff.1 hable).1
  rcases List.mem_cons.1 hsignal with rfl | hsignal
  · simp [signalAt, hgoesOn] at hgiven
  · obtain rfl := List.mem_singleton.1 hsignal
    obtain ⟨d, hd, rfl⟩ := Option.map_eq_some_iff.1 hgiven
    exact ⟨d, hd, Nat.le_max_right ..⟩

section Stopping

variable {parties : List (Party W)} {e e' : Engine W} {s : Scope} {allowance : Option Nat}
  {closeTimeout : Option Nat} {finish : Bool → W → W × Outcome} {o : Outcome}

/-- A caller that waits for the end goes on when serving has ended or its budget is used up, and
says which it was. -/
theorem Company.performs_waiting (h : Company slot parties .waiting e)
    (hfair : ∀ party ∈ parties, party.Fair slot)
    (hfinish : ∀ inTime w, Same slot w (finish inTime w).1)
    (hperforms : Performs s allowance ((stopping slot closeTimeout finish).drop 2) e
      (e', .outcome o)) :
    ∃ inTime w, o = (finish inTime w).2 ∧ Company slot parties (.answered inTime) e' ∧
      (slot.get e'.world).stopped = inTime ∧
      (inTime = false → ∃ d, budget closeTimeout allowance = some d ∧ e.now + d ≤ e'.now) := by
  unfold stopping at hperforms
  simp only [List.drop_succ_cons, List.drop_zero] at hperforms
  cases hperforms with
  | @pause _ _ _ e₁ time _ waits able goesOn =>
    obtain ⟨h₁, hlater₁, hnow₁⟩ := h.waits hfair waits
    cases goesOn with
    | @goOn _ _ _ e₂ _ _ _ gives =>
      have hturn : Routine.Turn (e₂.moment s allowance)
        ((stopping slot closeTimeout finish).drop 3) e₂.world [] none _ := .goOn gives
      obtain ⟨inTime, w, ho, -⟩ := turn_judge hfinish hturn
      cases ho
    | @finish _ _ _ e₂ w _ waits₂ gives =>
      obtain ⟨h₂, hlater₂, hnow₂⟩ := Company.waits (e := e₁.step time .caller) h₁ hfair waits₂
      have hturn : Routine.Turn (e₂.moment s allowance)
        ((stopping slot closeTimeout finish).drop 3) e₂.world _ (some o) w := .finish gives
      obtain ⟨inTime, w₁, ho, hmove, hstopped⟩ := turn_judge hfinish hturn
      refine ⟨inTime, w₁, Option.some.inj ho, h₂.move hmove, hstopped, fun hlate => ?_⟩
      -- what has not ended now had not ended when the caller went on
      have hgoesOn : (slot.get e₁.world).stopped = false := by
        by_contra hended
        have hended₁ : (slot.get (e₁.step time .caller).world).stopped = true :=
          Bool.not_eq_false _ ▸ hended
        have hended₂ := hmove.later.stopped (hlater₂.stopped hended₁)
        rw [hstopped, hlate] at hended₂
        cases hended₂
      obtain ⟨d, hd, hle⟩ := elapsed_of_goesOn able hgoesOn
      exact ⟨d, hd, Nat.le_trans hle hnow₂⟩

/-- **A shutdown in front of the parties of a listener**, none of which stops it: it says that the
end came in time if nobody serves when it comes back, and else that it did not, when the budget is
used up. -/
theorem Company.performs_stopping (h : Company slot parties .away e)
    (hfair : ∀ party ∈ parties, party.Fair slot)
    (hfinish : ∀ inTime w, Same slot w (finish inTime w).1)
    (hperforms : Performs s allowance (stopping slot closeTimeout finish) e (e', .outcome o)) :
    ∃ p inTime w, o = (finish inTime w).2 ∧ Company slot parties p e' ∧
      (inTime = true → p = .dropped ∨ p = .answered true) ∧
      (inTime = false → p = .answered false ∧ (slot.get e'.world).stopped = false ∧
        ∃ d, budget closeTimeout allowance = some d ∧ e.now + d ≤ e'.now) := by
  unfold stopping at hperforms
  cases hperforms with
  | @finish _ _ _ e₁ w _ _ gives =>
    have hturn : Routine.Turn (e₁.moment s allowance) (stopping slot closeTimeout finish) e₁.world
      _ (some o) w := .finish gives
    obtain ⟨-, ho, -⟩ := turn_ask hturn
    cases ho
  | @goOn _ _ _ e₁ w _ waits gives goesOn =>
    have hturn : Routine.Turn (e₁.moment s allowance) (stopping slot closeTimeout finish) e₁.world
      _ none w := .goOn gives
    obtain ⟨-, -, hask⟩ := turn_ask hturn
    obtain ⟨h₁, -, hnow₁⟩ := h.waits hfair waits
    have hasked := Company.move (e := e₁.step e₁.now .caller) h₁ hask
    cases goesOn with
    | @finish _ _ _ e₂ w₂ _ waits₂ gives₂ =>
      obtain ⟨h₂, -, -⟩ := hasked.waits hfair waits₂
      have hturn₂ : Routine.Turn (e₂.moment s allowance)
        ((stopping slot closeTimeout finish).drop 1) e₂.world _ (some o) w₂ := .finish gives₂
      obtain ⟨-, hnone, -⟩ | ⟨w₃, p, ho, hp, hmove⟩ := turn_drop hfinish hturn₂
      · cases hnone
      · exact ⟨p, true, w₃, Option.some.inj ho, h₂.move hmove, fun _ => hp, by simp⟩
    | @goOn _ _ _ e₂ w₂ _ waits₂ gives₂ goesOn₂ =>
      obtain ⟨h₂, -, hnow₂⟩ := hasked.waits hfair waits₂
      have hturn₂ : Routine.Turn (e₂.moment s allowance)
        ((stopping slot closeTimeout finish).drop 1) e₂.world _ none w₂ := .goOn gives₂
      obtain ⟨-, -, hmove⟩ | ⟨w₃, p, ho, -⟩ := turn_drop hfinish hturn₂
      · have hwaiting := Company.move (e := e₂.step e₂.now .caller) h₂ hmove
        obtain ⟨inTime, w₃, ho, h₃, hstopped, hlate⟩ :=
          hwaiting.performs_waiting hfair hfinish goesOn₂
        refine ⟨.answered inTime, inTime, w₃, ho, h₃, fun h => .inr (by rw [h]), fun h => ?_⟩
        obtain ⟨d, hd, hle⟩ := hlate h
        have hsince : e.now ≤ e₂.now := Nat.le_trans hnow₁ hnow₂
        exact ⟨by rw [h], hstopped.trans h, d, hd,
          Nat.le_trans (Nat.add_le_add_right hsince d) hle⟩
      · cases ho

end Stopping

/-! ### Who serves when it comes back -/

/-- An attempt has taken the listener and has not ended. -/
def Serves (slot : Slot W Listener) (s : Scene W) : Prop :=
  ∃ k name traffic t, Attempts s k name traffic t ∧ HasTaken slot name traffic t ∧ t.outcome = none

/-- How a shutdown comes back that began at a moment and has a limit. -/
structure ShutsDown (slot : Slot W Listener) (late : Outcome) (limit : Option Nat) (began : Nat)
    (s : Scene W) (o : Outcome) : Prop where
  /-- It succeeds if nobody serves any more. -/
  ended : ¬ Serves slot s → o = .ok
  /-- Otherwise its limit is reached, and who still serves is forced to end. -/
  late : Serves slot s → o = late ∧ limit.map (began + ·) = some s.engine.now ∧
    (slot.get s.engine.world).forced = true ∧
    ∀ k name traffic t, Attempts s k name traffic t → HasTaken slot name traffic t →
      t.outcome = none → s.engine.taskReadyAt t = some s.engine.now

/-- What is put on record makes no difference. -/
theorem ShutsDown.record {late : Outcome} {limit : Option Nat} {began : Nat}
    {parties : List (Party W)} {e : Engine W} {o : Outcome}
    (h : ShutsDown slot late limit began ⟨parties, e⟩ o) (event : Event) :
    ShutsDown slot late limit began ⟨parties, e.record event⟩ o := by
  have hattempts {k : Nat} {name : String} {traffic : Traffic} {t : Task W} :
      Attempts ⟨parties, e.record event⟩ k name traffic t ↔ Attempts ⟨parties, e⟩ k name traffic t :=
    ⟨fun ⟨lead, h⟩ => ⟨lead, h.party, h.task⟩, fun ⟨lead, h⟩ => ⟨lead, h.party, h.task⟩⟩
  have hserves : Serves slot ⟨parties, e.record event⟩ ↔ Serves slot ⟨parties, e⟩ := by
    simp only [Serves, hattempts]
  refine ⟨fun hnone => h.ended (hserves.not.1 hnone), fun hsome => ?_⟩
  obtain ⟨ho, hlimit, hforced, hready⟩ := h.late (hserves.1 hsome)
  exact ⟨ho, hlimit, hforced, fun k name traffic t ht => hready k name traffic t (hattempts.1 ht)⟩

section Serving

variable {parties : List (Party W)} {stands : List Stand} {e e' : Engine W} {s : Scope}
  {allowance : Option Nat} {closeTimeout : Option Nat} {finish : Bool → W → W × Outcome}
  {o late : Outcome}

/-- Somebody serves if and only if a party stands there. -/
theorem Cast.serves_iff (h : Cast slot parties stands e.tasks) :
    Serves slot ⟨parties, e⟩ ↔ .serving ∈ stands := by
  constructor
  · rintro ⟨k, name, traffic, t, ⟨lead, hparty, htask⟩, htaken, hlive⟩
    obtain ⟨p, hp, hstands⟩ := h.exists_stand k _ t hparty htask
    obtain ⟨rfl, -⟩ := hstands.serving_of_hasTaken (e := e) htaken hlive
    exact List.mem_of_getElem? hp
  · intro hserving
    obtain ⟨k, hk, hp⟩ := List.mem_iff_getElem.1 hserving
    rw [h.length_stands, ← h.length_tasks] at hk
    obtain ⟨party, p, hparty, hp', hstands⟩ := h.exists_party (List.getElem?_eq_getElem hk)
    obtain rfl : p = .serving :=
      Option.some.inj (hp'.symm.trans (List.getElem?_eq_some_iff.2 ⟨_, hp⟩))
    generalize houtcome : e.tasks[k].outcome = outcome, hcode : e.tasks[k].code = code at hstands
    cases hstands with
    | serving within =>
      refine ⟨k, _, _, _, ⟨_, hparty, List.getElem?_eq_getElem hk⟩, ?_, houtcome⟩
      rw [HasTaken, hcode]
      simp [Listener.serving]
      omega

/-- Where nobody stops the listener, only who serves or has served has taken it. -/
theorem Cast.serving_or_served (h : Cast slot parties stands e.tasks)
    (hstop : ∀ closeTimeout finish, .stop closeTimeout finish ∉ parties) {p : Stand}
    (hp : p ∈ stands) (htaken : p.hasTaken = true) : p = .serving ∨ p = .served := by
  obtain ⟨k, hk, rfl⟩ := List.mem_iff_getElem.1 hp
  have hk' := hk
  rw [h.length_stands, ← h.length_tasks] at hk'
  obtain ⟨party, p, hparty, hp', hstands⟩ := h.exists_party (List.getElem?_eq_getElem hk')
  obtain rfl : p = stands[k] := Option.some.inj (hp'.symm.trans (List.getElem?_eq_getElem hk))
  generalize e.tasks[k].outcome = outcome, e.tasks[k].code = code, stands[k] = p at hstands htaken
  cases hstands with
  | other | before => cases htaken
  | serving => exact .inl rfl
  | served => exact .inr rfl
  | unasked | asked | waiting | dropped | answered =>
    exact absurd (List.mem_of_getElem? hparty) (hstop _ _)

/-- **How a shutdown comes back**, in front of parties none of which stops the listener. -/
theorem shutsDown_of_performs (h : Company slot parties .away e)
    (hfair : ∀ party ∈ parties, party.Fair slot)
    (hstop : ∀ closeTimeout finish, .stop closeTimeout finish ∉ parties)
    (hfinish : ∀ inTime w, Same slot w (finish inTime w).1)
    (hok : ∀ w, (finish true w).2 = .ok) (hlate : ∀ w, (finish false w).2 = late)
    (hperforms : Performs s allowance (stopping slot closeTimeout finish) e (e', .outcome o)) :
    ShutsDown slot late (budget closeTimeout allowance) e.now ⟨parties, e'⟩ o := by
  obtain ⟨p, inTime, w, rfl, ⟨stands, hcast, horder⟩, hyes, hno⟩ :=
    h.performs_stopping hfair hfinish hperforms
  have hfits := horder.fits p List.mem_cons_self
  cases inTime with
  | true =>
    have hserving : .serving ∉ p :: stands := by
      rcases hyes rfl with rfl | rfl
      · exact horder.not_serving List.mem_cons_self rfl (by simp)
      · exact horder.not_serving_of_stopped (hfits.inTime rfl)
    refine ⟨fun _ => hok w, fun hserves => ?_⟩
    exact absurd (List.mem_cons_of_mem _ (hcast.serves_iff.1 hserves)) hserving
  | false =>
    obtain ⟨rfl, hstopped, d, hd, hle⟩ := hno rfl
    -- the listener has been taken, and by nobody who has served
    have hserves : Serves slot ⟨parties, e'⟩ := by
      obtain ⟨q, hq, htaken⟩ := horder.exists_hasTaken (hfits.givenUp rfl)
      rcases List.mem_cons.1 hq with rfl | hq
      · cases htaken
      rcases hcast.serving_or_served hstop hq htaken with rfl | rfl
      · exact hcast.serves_iff.2 hq
      · rw [(horder.fits _ (List.mem_cons_of_mem _ hq)).served rfl] at hstopped
        cases hstopped
    have hforced := hfits.late rfl
    refine ⟨fun hnone => absurd hserves hnone, fun _ => ⟨hlate w, ?_, hforced, ?_⟩⟩
    · have hwithin := (hperforms.within (d := d) ((limit?_stopping ..).trans hd)).2
      rw [hd]
      exact congrArg some (Nat.le_antisymm hle hwithin)
    · rintro k name traffic t ⟨lead, hparty, htask⟩ htaken hlive
      obtain ⟨q, -, hstands⟩ := hcast.exists_stand k _ t hparty htask
      exact (hstands.serving_of_hasTaken htaken hlive).2 hforced

end Serving

end ServiceHost.Listener
