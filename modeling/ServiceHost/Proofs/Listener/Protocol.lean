import Mathlib.Data.List.Perm.Basic
import ServiceHost.Listener
/-!
The protocol of a listener: who may do what with it, and when.

Several parties share a listener that has been bound once.  Those that want to serve take it, those
that want it stopped ask for the end, give it up and wait.  `Listener.Stand` says how far a party
has come and `Listener.Move` what it can do next, each move with its effect on the listener.

The invariant is that the listener is in one place only: it waits, or exactly one party has taken
it, be it to serve or to give it up (`Orderly.one`).  Every move keeps that (`Orderly.move`), and
what is true after a stop follows from it.
-/

namespace ServiceHost.Listener

/-! ### Stands and moves -/

/-- How far a party of a listener has come. -/
inductive Stand where
  /-- It has not touched the listener, and perhaps never does. -/
  | away
  /-- It has taken the listener and serves. -/
  | serving
  /-- It has served. -/
  | served
  /-- It has asked for the end. -/
  | asked
  /-- It waits for the end. -/
  | waiting
  /-- It has given the listener up before anyone served. -/
  | dropped
  /-- It has waited, and knows whether the end came in time. -/
  | answered (inTime : Bool)
  deriving DecidableEq

/-- Has the party taken the listener? -/
def Stand.hasTaken : Stand → Bool
  | .serving | .served | .dropped => true
  | _ => false

/-- Has the party asked for the end? -/
def Stand.hasAsked : Stand → Bool
  | .asked | .waiting | .dropped | .answered _ => true
  | _ => false

/-- Is the listener given up as far as the party is concerned? -/
def Stand.hasGivenUp : Stand → Bool
  | .waiting | .dropped | .answered _ => true
  | _ => false

/-- What a party can do with a listener. -/
inductive Move : Stand → Listener → Stand → Listener → Prop
  | stay {p : Stand} {l : Listener} : Move p l p l
  | take {l l' : Listener} (taken : l.take? = some l') : Move .away l .serving l'
  | finish {l : Listener} : Move .serving l .served l.markStopped
  | ask {l : Listener} : Move .away l .asked l.requestStop
  | drop {l : Listener} (unserved : l.waiting = true) : Move .asked l .dropped l.drop
  | find {l : Listener} (gone : l.waiting = false) (ended : l.stopped = true) :
      Move .asked l (.answered true) l.drop
  | wait {l : Listener} (gone : l.waiting = false) (goesOn : l.stopped = false) :
      Move .asked l .waiting l.drop
  | inTime {l : Listener} (ended : l.stopped = true) : Move .waiting l (.answered true) l
  | force {l : Listener} (goesOn : l.stopped = false) :
      Move .waiting l (.answered false) l.force

/-! ### What moves keep -/

/-- A listener as it may be found later: nobody binds it again, and nothing that has been asked for
or has come to pass is taken back. -/
structure Later (l l' : Listener) : Prop where
  waiting : l'.waiting = true → l.waiting = true
  stopRequested : l.stopRequested = true → l'.stopRequested = true
  forced : l.forced = true → l'.forced = true
  stopped : l.stopped = true → l'.stopped = true

theorem Later.refl (l : Listener) : Later l l :=
  ⟨id, id, id, id⟩

theorem Later.trans {l l' l'' : Listener} (h : Later l l') (h' : Later l' l'') : Later l l'' :=
  ⟨h.waiting ∘ h'.waiting, h'.stopRequested ∘ h.stopRequested, h'.forced ∘ h.forced,
    h'.stopped ∘ h.stopped⟩

/-- A listener that is gone stays so. -/
theorem Later.gone {l l' : Listener} (h : Later l l') (hgone : l.waiting = false) :
    l'.waiting = false :=
  Bool.eq_false_iff.2 fun hwaiting => by simp [h.waiting hwaiting] at hgone

theorem take?_eq_some {l l' : Listener} (h : l.take? = some l') :
    l.waiting = true ∧ l' = l.drop := by
  unfold take? at h
  split at h
  next hwaiting => exact ⟨hwaiting, (Option.some.inj h).symm⟩
  next => cases h

theorem Move.later {p p' : Stand} {l l' : Listener} (h : Move p l p' l') : Later l l' := by
  cases h with
  | stay | inTime => exact .refl l
  | take taken =>
    obtain ⟨-, rfl⟩ := take?_eq_some taken
    exact ⟨by simp [Listener.drop], id, id, id⟩
  | finish => exact ⟨id, id, id, fun _ => rfl⟩
  | ask => exact ⟨id, fun _ => rfl, id, id⟩
  | drop | find | wait => exact ⟨by simp [Listener.drop], id, id, id⟩
  | force => exact ⟨id, id, fun _ => rfl, id⟩

/-- A move hands the listener on at most: it is waiting or taken by the party afterwards if it was
before. -/
theorem Move.one {p p' : Stand} {l l' : Listener} (h : Move p l p' l') :
    l'.waiting.toNat + p'.hasTaken.toNat = l.waiting.toNat + p.hasTaken.toNat := by
  cases h with
  | stay | finish | ask | inTime | force => rfl
  | take taken =>
    obtain ⟨hwaiting, rfl⟩ := take?_eq_some taken
    rw [hwaiting]
    rfl
  | drop unserved =>
    rw [unserved]
    rfl
  | find gone | wait gone =>
    rw [gone]
    rfl

/-- Serving has ended only where a party has served. -/
theorem Move.served {p p' : Stand} {l l' : Listener} (h : Move p l p' l')
    (hstopped : l'.stopped = true) : (l.stopped = true ∧ (p = .served → p' = .served)) ∨
      p' = .served := by
  cases h with
  | stay => exact .inl ⟨hstopped, id⟩
  | finish => exact .inr rfl
  | take taken =>
    obtain ⟨-, rfl⟩ := take?_eq_some taken
    exact .inl ⟨hstopped, by simp⟩
  | ask | drop | find | wait | inTime | force => exact .inl ⟨hstopped, by simp⟩

/-- What a party that has come so far can rely on. -/
structure Stand.Fits (p : Stand) (l : Listener) : Prop where
  asked : p.hasAsked = true → l.stopRequested = true
  givenUp : p.hasGivenUp = true → l.waiting = false
  served : p = .served → l.stopped = true
  inTime : p = .answered true → l.stopped = true
  late : p = .answered false → l.forced = true

/-- A party that has not touched the listener relies on nothing. -/
theorem Stand.Fits.away (l : Listener) : Stand.away.Fits l := by
  constructor <;> simp [Stand.hasAsked, Stand.hasGivenUp]

/-- It can rely on it from then on. -/
theorem Stand.Fits.later {p : Stand} {l l' : Listener} (h : p.Fits l) (hlater : Later l l') :
    p.Fits l' where
  asked hp := hlater.stopRequested (h.asked hp)
  givenUp hp := hlater.gone (h.givenUp hp)
  served hp := hlater.stopped (h.served hp)
  inTime hp := hlater.stopped (h.inTime hp)
  late hp := hlater.forced (h.late hp)

theorem Move.fits {p p' : Stand} {l l' : Listener} (h : Move p l p' l') (hp : p.Fits l) :
    p'.Fits l' := by
  cases h with
  | stay => exact hp
  | take => constructor <;> simp [Stand.hasAsked, Stand.hasGivenUp]
  | finish => constructor <;> simp [Stand.hasAsked, Stand.hasGivenUp, markStopped]
  | ask => constructor <;> simp [Stand.hasGivenUp, requestStop]
  | drop | wait =>
    have hasked : l.stopRequested = true := hp.asked rfl
    constructor <;> simp [Listener.drop, hasked]
  | find _ ended =>
    have hasked : l.stopRequested = true := hp.asked rfl
    constructor <;> simp [Listener.drop, hasked, ended]
  | inTime ended =>
    have hgone : l.waiting = false := hp.givenUp rfl
    constructor <;> simp [hp.asked rfl, hgone, ended]
  | force =>
    have hasked : l.stopRequested = true := hp.asked rfl
    have hgone : l.waiting = false := hp.givenUp rfl
    constructor <;> simp [Listener.force, hasked, hgone]

/-! ### The order among the parties -/

/-- How a listener and its parties fit together. -/
structure Orderly (stands : List Stand) (l : Listener) : Prop where
  /-- The listener is in one place. -/
  one : l.waiting.toNat + stands.countP Stand.hasTaken = 1
  served : l.stopped = true → .served ∈ stands
  fits : ∀ p ∈ stands, p.Fits l

namespace Orderly

variable {stands stands' : List Stand} {p p' : Stand} {l l' : Listener}

/-- The order does not depend on which party is named first. -/
theorem perm (h : Orderly stands l) (hperm : stands.Perm stands') : Orderly stands' l where
  one := hperm.countP_eq _ ▸ h.one
  served hstopped := hperm.mem_iff.1 (h.served hstopped)
  fits q hq := h.fits q (hperm.mem_iff.2 hq)

/-- A move of one party keeps the order. -/
theorem move (h : Orderly (p :: stands) l) (hmove : Move p l p' l') :
    Orderly (p' :: stands) l' where
  one := by
    have hbefore := h.one
    have hmoved := hmove.one
    rw [List.countP_cons] at hbefore ⊢
    cases hp : p.hasTaken <;> cases hp' : p'.hasTaken <;> simp_all <;> omega
  served hstopped := by
    rcases hmove.served hstopped with ⟨hbefore, hstays⟩ | rfl
    · rcases List.mem_cons.1 (h.served hbefore) with hp | hmem
      · exact List.mem_cons.2 (.inl (hstays hp.symm).symm)
      · exact List.mem_cons_of_mem _ hmem
    · exact List.mem_cons_self
  fits q hq := by
    rcases List.mem_cons.1 hq with rfl | hmem
    · exact hmove.fits (h.fits p List.mem_cons_self)
    · exact (h.fits q (List.mem_cons_of_mem _ hmem)).later hmove.later

/-- A move of the party at a place keeps the order. -/
theorem set (h : Orderly stands l) {k : Nat} (hk : stands[k]? = some p)
    (hmove : Move p l p' l') : Orderly (stands.set k p') l' := by
  obtain ⟨hlt, rfl⟩ := List.getElem?_eq_some_iff.1 hk
  have hmoved := (h.perm (List.getElem_cons_eraseIdx_perm hlt).symm).move hmove
  exact hmoved.perm (List.set_perm_cons_eraseIdx hlt p').symm

/-- A party more that has not touched the listener makes no difference. -/
theorem snoc (h : Orderly stands l) : Orderly (stands ++ [.away]) l where
  one := by
    have hone := h.one
    rw [List.countP_append]
    simpa [Stand.hasTaken] using hone
  served hstopped := List.mem_append_left _ (h.served hstopped)
  fits q hq := by
    rcases List.mem_append.1 hq with hq | hq
    · exact h.fits q hq
    · obtain rfl := List.mem_singleton.1 hq
      exact .away l

/-! ### What follows from it -/

/-- No two parties take the listener. -/
theorem eq_of_hasTaken (h : Orderly stands l) {q : Stand} (hp : p ∈ stands) (hq : q ∈ stands)
    (htaken : p.hasTaken = true) (htaken' : q.hasTaken = true) : p = q := by
  by_contra hne
  have hone := (h.perm (List.perm_cons_erase hp)).one
  have hother : 0 < (stands.erase p).countP Stand.hasTaken :=
    List.countP_pos_iff.2 ⟨q, (List.mem_erase_of_ne (Ne.symm hne)).2 hq, htaken'⟩
  rw [List.countP_cons_of_pos htaken] at hone
  omega

/-- A listener that does not wait has been taken. -/
theorem exists_hasTaken (h : Orderly stands l) (hgone : l.waiting = false) :
    ∃ p ∈ stands, p.hasTaken = true := by
  have hone := h.one
  rw [hgone, Bool.toNat_false, Nat.zero_add] at hone
  exact List.countP_pos_iff.1 (hone ▸ Nat.one_pos)

/-- Nobody serves once a party has served or has given the listener up. -/
theorem not_serving (h : Orderly stands l) (hp : p ∈ stands) (htaken : p.hasTaken = true)
    (hne : p ≠ .serving) : .serving ∉ stands :=
  fun hserving => hne (h.eq_of_hasTaken hp hserving htaken rfl)

/-- Nobody serves once serving has ended. -/
theorem not_serving_of_stopped (h : Orderly stands l) (hstopped : l.stopped = true) :
    .serving ∉ stands :=
  h.not_serving (h.served hstopped) rfl (by simp)

end Orderly

end ServiceHost.Listener
