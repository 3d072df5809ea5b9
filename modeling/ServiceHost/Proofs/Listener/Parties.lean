import ServiceHost.Proofs.Lifecycle.Performing
import ServiceHost.Proofs.Listener.Protocol
/-!
The tasks of an engine as parties of a listener.

`Listener.Party` names what a task can be to a listener: an attempt to serve, a stop, or something
else that leaves it alone.  From what is left of its code and how it has ended one can tell how far
the party has come (`Listener.Stands`), and every turn that the task takes is a move of the protocol
(`Stands.turn`).  So the protocol's order holds among all tasks of an engine, and is kept by
whatever the background does (`Company.stirs`).
-/

namespace ServiceHost.Listener

open Relation

variable {W : Type}

/-! ### Parties -/

/-- The worlds have the same listener. -/
def Same (slot : Slot W Listener) (w w' : W) : Prop :=
  slot.get w' = slot.get w

instance (slot : Slot W Listener) : IsPreorder W (Same slot) where
  refl _ := rfl
  trans _ _ _ h h' := h'.trans h

/-- What a task can be to a listener. -/
inductive Party (W : Type) where
  /-- It serves, perhaps after something else. -/
  | serve (lead : Routine W) (name : String) (traffic : Traffic)
  /-- It stops the listener. -/
  | stop (closeTimeout : Option Nat) (finish : Bool → W → W × Outcome)
  /-- It has nothing to do with the listener. -/
  | other (code : Routine W)

/-- The code of a party. -/
def Party.code (slot : Slot W Listener) : Party W → Routine W
  | .serve lead name traffic => lead ++ serving slot name traffic
  | .stop closeTimeout finish => stopping slot closeTimeout finish
  | .other code => code

/-- Apart from serving and stopping a party leaves the listener alone. -/
def Party.Fair (slot : Slot W Listener) : Party W → Prop
  | .serve lead _ _ => lead.Respects (Same slot)
  | .stop _ finish => ∀ inTime w, Same slot w (finish inTime w).1
  | .other code => code.Respects (Same slot)

/-- The end of an attempt to serve that comes too early or too late. -/
def refusal (name : String) : Outcome :=
  .failed (.host (.notPrepared name))

/-- How far a party has come, by what is left of its code and by how it has ended, if it has. -/
inductive Stands (slot : Slot W Listener) :
    Party W → Stand → Routine W → Option Outcome → Prop
  | other {whole code : Routine W} {o : Option Outcome} (fair : code.Respects (Same slot)) :
      Stands slot (.other whole) .away code o
  | before {lead rest : Routine W} {name : String} {traffic : Traffic} {o : Option Outcome}
      (part : rest <:+ lead) (refused : rest = [] → ∀ end', o = some end' → end' = refusal name) :
      Stands slot (.serve lead name traffic) .away (rest ++ serving slot name traffic) o
  | serving {lead : Routine W} {name : String} {traffic : Traffic} {n : Nat} (within : n < 4) :
      Stands slot (.serve lead name traffic) .serving ((serving slot name traffic).drop (n + 1))
        none
  | served {lead : Routine W} {name : String} {traffic : Traffic} {n : Nat} {o : Outcome} :
      Stands slot (.serve lead name traffic) .served ((serving slot name traffic).drop (n + 1))
        (some o)
  | unasked {closeTimeout : Option Nat} {finish : Bool → W → W × Outcome} :
      Stands slot (.stop closeTimeout finish) .away (stopping slot closeTimeout finish) none
  | asked {closeTimeout : Option Nat} {finish : Bool → W → W × Outcome} :
      Stands slot (.stop closeTimeout finish) .asked ((stopping slot closeTimeout finish).drop 1)
        none
  | waiting {closeTimeout : Option Nat} {finish : Bool → W → W × Outcome} {n : Nat}
      (within : n = 2 ∨ n = 3) :
      Stands slot (.stop closeTimeout finish) .waiting ((stopping slot closeTimeout finish).drop n)
        none
  | dropped {closeTimeout : Option Nat} {finish : Bool → W → W × Outcome} {code : Routine W}
      {w : W} : Stands slot (.stop closeTimeout finish) .dropped code (some (finish true w).2)
  | answered {closeTimeout : Option Nat} {finish : Bool → W → W × Outcome} {code : Routine W}
      {inTime : Bool} {w : W} :
      Stands slot (.stop closeTimeout finish) (.answered inTime) code (some (finish inTime w).2)

/-! ### Turns as moves -/

section Turns

variable {slot : Slot W Listener} {name : String} {traffic : Traffic} {closeTimeout : Option Nat}
  {finish : Bool → W → W × Outcome} {code' : Routine W} {o : Option Outcome} {m : Moment}
  {w w' : W}

/-- The first turn of serving takes the listener, or there is none to take. -/
theorem turn_serving (h : Routine.Turn m (serving slot name traffic) w code' o w') :
    (∃ l, (slot.get w).take? = some l ∧ slot.get w' = l ∧
        code' = (serving slot name traffic).drop 1 ∧ o = none) ∨
      (w' = w ∧ code' = serving slot name traffic ∧ o = some (refusal name)) := by
  unfold serving at h
  cases h with
  | goOn gives =>
    dsimp only at gives
    split at gives
    next l hl =>
      obtain ⟨rfl, -⟩ := Prod.mk.inj gives
      exact .inl ⟨l, hl, slot.get_put l w, rfl, rfl⟩
    next => cases gives
  | finish gives =>
    dsimp only at gives
    split at gives
    next => cases gives
    next =>
      cases gives
      exact .inr ⟨rfl, rfl, rfl⟩

/-- Each later turn of serving changes nothing, or is the last one and says that serving has
ended. -/
theorem turn_serving_drop {n : Nat} (hn : n < 4)
    (h : Routine.Turn m ((serving slot name traffic).drop (n + 1)) w code' o w') :
    (n + 1 < 4 ∧ w' = w ∧ code' = (serving slot name traffic).drop (n + 2) ∧ o = none) ∨
      (slot.get w' = (slot.get w).markStopped ∧
        code' = (serving slot name traffic).drop (n + 1) ∧ ∃ end', o = some end') := by
  match n, hn with
  | 0, _ | 2, _ =>
    cases h
    exact .inl ⟨by decide, rfl, rfl, rfl⟩
  | 1, _ =>
    cases h with
    | goOn gives =>
      dsimp only at gives
      split at gives
      next => cases gives
      next =>
        obtain ⟨rfl, -⟩ := Prod.mk.inj gives
        exact .inl ⟨by decide, rfl, rfl, rfl⟩
    | finish gives =>
      dsimp only at gives
      split at gives
      next =>
        obtain ⟨rfl, -⟩ := Prod.mk.inj gives
        exact .inr ⟨slot.get_modify _ _, rfl, _, rfl⟩
      next => cases gives
  | 3, _ =>
    cases h with
    | goOn gives => cases gives
    | finish gives =>
      obtain ⟨rfl, -⟩ := Prod.mk.inj gives
      exact .inr ⟨slot.get_modify _ _, rfl, _, rfl⟩

/-- A turn of an attempt to serve is a move of the protocol. -/
theorem Stands.turn_serve {lead : Routine W} {p : Stand} {code : Routine W}
    (h : Stands slot (.serve lead name traffic) p code none) (hfair : lead.Respects (Same slot))
    (hturn : Routine.Turn m code w code' o w') :
    ∃ p', Stands slot (.serve lead name traffic) p' code' o ∧
      Move p (slot.get w) p' (slot.get w') := by
  cases h with
  | @before _ rest _ _ _ part refused =>
    cases rest with
    | nil =>
      -- the next thing to do is to take the listener
      rcases turn_serving hturn with ⟨l, htake, rfl, rfl, rfl⟩ | ⟨rfl, rfl, rfl⟩
      · exact ⟨.serving, .serving (by decide), .take htake⟩
      · exact ⟨.away, .before part (by simp), .stay⟩
    | cons i rest =>
      -- something else comes before, which leaves the listener alone
      obtain ⟨code'', rfl, hlead⟩ := hturn.of_append
      obtain ⟨-, hsame⟩ := hlead.respected fun effect hmem => hfair effect (part.subset hmem)
      rw [hsame]
      rcases hlead.of_cons with ⟨rfl, rfl⟩ | ⟨rfl, -⟩
      · exact ⟨.away, .before ((List.suffix_cons i _).trans part) (by simp), .stay⟩
      · exact ⟨.away, .before part (by simp), .stay⟩
  | serving within =>
    rcases turn_serving_drop within hturn with ⟨hwithin, rfl, rfl, rfl⟩ | ⟨hw, rfl, end', rfl⟩
    · exact ⟨.serving, .serving hwithin, .stay⟩
    · exact ⟨.served, .served, hw ▸ .finish⟩

/-- The first turn of a stop asks for the end. -/
theorem turn_ask (h : Routine.Turn m (stopping slot closeTimeout finish) w code' o w') :
    code' = (stopping slot closeTimeout finish).drop 1 ∧ o = none ∧
      Move .away (slot.get w) .asked (slot.get w') := by
  unfold stopping at h
  cases h with
  | goOn gives =>
    obtain ⟨rfl, -⟩ := Prod.mk.inj gives
    exact ⟨rfl, rfl, slot.get_modify _ w ▸ .ask⟩
  | finish gives => cases gives

/-- The second turn of a stop gives the listener up, and ends the stop if nobody serves. -/
theorem turn_drop (hfair : ∀ inTime w, Same slot w (finish inTime w).1)
    (h : Routine.Turn m ((stopping slot closeTimeout finish).drop 1) w code' o w') :
    (code' = (stopping slot closeTimeout finish).drop 2 ∧ o = none ∧
        Move .asked (slot.get w) .waiting (slot.get w')) ∨
      ∃ w₁ p', o = some (finish true w₁).2 ∧ (p' = .dropped ∨ p' = .answered true) ∧
        Move .asked (slot.get w) p' (slot.get w') := by
  cases h with
  | goOn gives =>
    dsimp only at gives
    split at gives
    next => cases gives
    next hgoesOn =>
      obtain ⟨rfl, -⟩ := Prod.mk.inj gives
      obtain ⟨hgone, hstopped⟩ : (slot.get w).waiting = false ∧ (slot.get w).stopped = false := by
        simpa [stopsAtOnce] using hgoesOn
      rw [slot.get_modify]
      exact .inl ⟨rfl, rfl, .wait hgone hstopped⟩
  | finish gives =>
    dsimp only at gives
    split at gives
    next hatOnce =>
      cases gives
      rw [hfair, slot.get_modify]
      cases hwaiting : (slot.get w).waiting with
      | true => exact .inr ⟨_, .dropped, rfl, .inl rfl, .drop hwaiting⟩
      | false =>
        rw [stopsAtOnce, hwaiting, Bool.false_or] at hatOnce
        exact .inr ⟨_, .answered true, rfl, .inr rfl, .find hwaiting hatOnce⟩
    next => cases gives

/-- The last turn of a stop tells whether the end came in time, and forces it if it did not. -/
theorem turn_judge (hfair : ∀ inTime w, Same slot w (finish inTime w).1)
    (h : Routine.Turn m ((stopping slot closeTimeout finish).drop 3) w code' o w') :
    ∃ inTime w₁, o = some (finish inTime w₁).2 ∧
      Move .waiting (slot.get w) (.answered inTime) (slot.get w') ∧
      (slot.get w').stopped = inTime := by
  cases h with
  | goOn gives =>
    dsimp only at gives
    split at gives <;> cases gives
  | finish gives =>
    dsimp only at gives
    split at gives
    next hstopped =>
      cases gives
      rw [hfair]
      exact ⟨true, _, rfl, .inTime hstopped, hstopped⟩
    next hgoesOn =>
      cases gives
      have hgoesOn' : (slot.get w).stopped = false := by simpa using hgoesOn
      rw [hfair, slot.get_modify]
      exact ⟨false, _, rfl, .force hgoesOn', hgoesOn'⟩

/-- A turn of a stop is a move of the protocol. -/
theorem Stands.turn_stop {p : Stand} {code : Routine W}
    (h : Stands slot (.stop closeTimeout finish) p code none)
    (hfair : ∀ inTime w, Same slot w (finish inTime w).1)
    (hturn : Routine.Turn m code w code' o w') :
    ∃ p', Stands slot (.stop closeTimeout finish) p' code' o ∧
      Move p (slot.get w) p' (slot.get w') := by
  cases h with
  | unasked =>
    obtain ⟨rfl, rfl, hmove⟩ := turn_ask hturn
    exact ⟨.asked, .asked, hmove⟩
  | asked =>
    rcases turn_drop hfair hturn with ⟨rfl, rfl, hmove⟩ | ⟨w₁, p', rfl, rfl | rfl, hmove⟩
    · exact ⟨.waiting, .waiting (.inl rfl), hmove⟩
    · exact ⟨.dropped, .dropped, hmove⟩
    · exact ⟨.answered true, .answered, hmove⟩
  | waiting within =>
    rcases within with rfl | rfl
    · cases hturn
      exact ⟨.waiting, .waiting (.inr rfl), .stay⟩
    · obtain ⟨inTime, w₁, rfl, hmove, -⟩ := turn_judge hfair hturn
      exact ⟨.answered inTime, .answered, hmove⟩

/-- **A turn of a party is a move of the protocol.** -/
theorem Stands.turn {party : Party W} {p : Stand} {code : Routine W}
    (h : Stands slot party p code none) (hfair : party.Fair slot)
    (hturn : Routine.Turn m code w code' o w') :
    ∃ p', Stands slot party p' code' o ∧ Move p (slot.get w) p' (slot.get w') := by
  cases party with
  | serve => exact h.turn_serve hfair hturn
  | stop => exact h.turn_stop hfair hturn
  | other =>
    obtain ⟨fair⟩ := h
    obtain ⟨hrest, hsame⟩ := hturn.respected fair
    exact ⟨.away, .other hrest, hsame ▸ .stay⟩

/-- A party that serves has come past the taking of the listener if and only if it has taken it. -/
theorem Stands.length_lt_iff {lead : Routine W} {p : Stand} {code : Routine W}
    (h : Stands slot (.serve lead name traffic) p code o) :
    code.length < (Listener.serving slot name traffic).length ↔ p ≠ .away := by
  cases h with
  | before => simp
  | serving | served => simp [Listener.serving]; omega

end Turns

/-! ### All tasks of an engine -/

/-- The tasks of an engine are the given parties and have come so far. -/
structure Cast (slot : Slot W Listener) (parties : List (Party W)) (stands : List Stand)
    (tasks : List (Task W)) : Prop where
  length_tasks : tasks.length = parties.length
  length_stands : stands.length = parties.length
  exists_stand : ∀ (k : Nat) (party : Party W) (t : Task W), parties[k]? = some party →
    tasks[k]? = some t → ∃ p, stands[k]? = some p ∧ Stands slot party p t.code t.outcome

/-- The tasks of an engine are parties of one listener, with the caller as one more, and all keep
the order. -/
def Company (slot : Slot W Listener) (parties : List (Party W)) (caller : Stand) (e : Engine W) :
    Prop :=
  ∃ stands, Cast slot parties stands e.tasks ∧ Orderly (caller :: stands) (slot.get e.world)

section Companies

variable {slot : Slot W Listener} {parties : List (Party W)} {stands : List Stand}
  {tasks : List (Task W)} {caller : Stand} {e e' : Engine W} {k : Nat} {party : Party W} {t : Task W}

/-- Every task is a party. -/
theorem Cast.exists_party (h : Cast slot parties stands tasks) (ht : tasks[k]? = some t) :
    ∃ party p, parties[k]? = some party ∧ stands[k]? = some p ∧
      Stands slot party p t.code t.outcome := by
  obtain ⟨hlt, -⟩ := List.getElem?_eq_some_iff.1 ht
  rw [h.length_tasks] at hlt
  have hparty := List.getElem?_eq_getElem hlt
  obtain ⟨p, hp, hstands⟩ := h.exists_stand k _ t hparty ht
  exact ⟨_, p, hparty, hp, hstands⟩

/-- A task that comes to another stand. -/
theorem Cast.set (h : Cast slot parties stands tasks) (hparty : parties[k]? = some party)
    {t' : Task W} {p' : Stand} (hstands : Stands slot party p' t'.code t'.outcome) :
    Cast slot parties (stands.set k p') (tasks.set k t') where
  length_tasks := by rw [List.length_set, h.length_tasks]
  length_stands := by rw [List.length_set, h.length_stands]
  exists_stand j party' t'' hj ht'' := by
    rw [List.getElem?_set] at ht'' ⊢
    split at ht''
    next heq =>
      obtain rfl := heq
      split at ht''
      next hlt =>
        obtain rfl := Option.some.inj (hparty.symm.trans hj)
        obtain rfl := Option.some.inj ht''
        rw [if_pos rfl, if_pos (by rwa [h.length_stands, ← h.length_tasks])]
        exact ⟨p', rfl, hstands⟩
      next => cases ht''
    next hne =>
      rw [if_neg hne]
      exact h.exists_stand j party' t'' hj ht''

/-- A task that comes to the same stand with other work. -/
theorem Cast.same (h : Cast slot parties stands tasks) (ht : tasks[k]? = some t) {t' : Task W}
    (hcode : t'.code = t.code) (houtcome : t'.outcome = t.outcome) :
    Cast slot parties stands (tasks.set k t') := by
  obtain ⟨party, p, hparty, hp, hstands⟩ := h.exists_party ht
  have hset := h.set hparty (hcode ▸ houtcome ▸ hstands : Stands slot party p t'.code t'.outcome)
  obtain ⟨hlt, rfl⟩ := List.getElem?_eq_some_iff.1 hp
  rwa [List.set_getElem_self] at hset

/-- One more task. -/
theorem Cast.snoc (h : Cast slot parties stands tasks) {p : Stand}
    (hstands : Stands slot party p t.code t.outcome) :
    Cast slot (parties ++ [party]) (stands ++ [p]) (tasks ++ [t]) where
  length_tasks := by simp [h.length_tasks]
  length_stands := by simp [h.length_stands]
  exists_stand j party' t' hj ht' := by
    rcases Nat.lt_or_ge j parties.length with hlt | hge
    · rw [List.getElem?_append_left hlt] at hj
      rw [List.getElem?_append_left (by rwa [h.length_tasks])] at ht'
      rw [List.getElem?_append_left (by rwa [h.length_stands])]
      exact h.exists_stand j party' t' hj ht'
    · rw [List.getElem?_append_right hge, List.getElem?_singleton] at hj
      rw [List.getElem?_append_right (by rwa [h.length_tasks]), List.getElem?_singleton,
        h.length_tasks] at ht'
      rw [List.getElem?_append_right (by rwa [h.length_stands]), List.getElem?_singleton,
        h.length_stands]
      split at hj
      next hzero =>
        rw [if_pos hzero] at ht' ⊢
        obtain rfl := Option.some.inj hj
        obtain rfl := Option.some.inj ht'
        exact ⟨p, rfl, hstands⟩
      next => cases hj

/-- **The order is kept by whatever the background does.** -/
theorem Company.stirs (h : Company slot parties caller e)
    (hfair : ∀ party ∈ parties, party.Fair slot) (hstirs : Engine.Stirs e e') :
    Company slot parties caller e' ∧ Later (slot.get e.world) (slot.get e'.world) := by
  obtain ⟨stands, hcast, horder⟩ := h
  cases hstirs with
  | still tasks world =>
    rw [world]
    exact ⟨⟨stands, tasks ▸ hcast, world ▸ horder⟩, .refl _⟩
  | start here _ tasks code outcome world =>
    rw [world]
    exact ⟨⟨stands, tasks ▸ hcast.same here code outcome, world ▸ horder⟩, .refl _⟩
  | @turn k t t' m here live tasks takes =>
    obtain ⟨party, p, hparty, hp, hstands⟩ := hcast.exists_party here
    obtain ⟨p', hstands', hmove⟩ :=
      (live ▸ hstands).turn (hfair party (List.mem_of_getElem? hparty)) takes
    have hk : (caller :: stands)[k + 1]? = some p := by simpa using hp
    refine ⟨⟨stands.set k p', tasks ▸ hcast.set hparty hstands', ?_⟩, hmove.later⟩
    simpa using horder.set hk hmove

theorem Company.waits (h : Company slot parties caller e)
    (hfair : ∀ party ∈ parties, party.Fair slot) {ready : Engine W → Option Nat}
    (hwaits : ReflTransGen (Engine.Waits ready) e e') :
    Company slot parties caller e' ∧ Later (slot.get e.world) (slot.get e'.world) ∧
      e.now ≤ e'.now := by
  induction hwaits with
  | refl => exact ⟨h, .refl _, Nat.le_refl _⟩
  | tail _ hlast ih =>
    obtain ⟨hcompany, hlater, hnow⟩ := ih
    obtain ⟨hcompany', hlater'⟩ := hcompany.stirs hfair hlast.stirs
    obtain ⟨hable, -, -⟩ := hlast
    refine ⟨hcompany', hlater.trans hlater', Nat.le_trans hnow ?_⟩
    rw [(Engine.acts_course hable).2]
    exact Engine.now_le_of_mem_background hable

/-- The caller makes a move. -/
theorem Company.move (h : Company slot parties caller e) {caller' : Stand} {w : W}
    (hmove : Move caller (slot.get e.world) caller' (slot.get w)) :
    Company slot parties caller' { e with world := w } := by
  obtain ⟨stands, hcast, horder⟩ := h
  exact ⟨stands, hcast, horder.move hmove⟩

end Companies

end ServiceHost.Listener
