/-!
Steps that may fail: what is known when several of them have succeeded, or one of them has not.
-/

namespace Except

variable {ε ε' α β : Type} {x : Except ε α}

/-- What went wrong. -/
def error? : Except ε α → Option ε
  | .ok _ => none
  | .error e => some e

theorem map_eq_ok_iff {f : α → β} {b : β} : x.map f = .ok b ↔ ∃ a, x = .ok a ∧ f a = b := by
  cases x <;> simp [Except.map]

theorem map_eq_error_iff {f : α → β} {e : ε} : x.map f = .error e ↔ x = .error e := by
  cases x <;> simp [Except.map]

theorem mapError_eq_ok_iff {f : ε → ε'} {a : α} : x.mapError f = .ok a ↔ x = .ok a := by
  cases x with
  | ok b =>
    show Except.ok b = .ok a ↔ Except.ok b = .ok a
    simp only [Except.ok.injEq]
  | error e => constructor <;> (intro h; cases h)

theorem toOption_eq_some_iff {a : α} : x.toOption = some a ↔ x = .ok a := by
  cases x <;> simp [Except.toOption]

theorem bind_eq_ok_iff {f : α → Except ε β} {b : β} :
    x.bind f = .ok b ↔ ∃ a, x = .ok a ∧ f a = .ok b := by
  cases x <;> simp [Except.bind]

/-- A fold over what is made of some members of a list is a fold over these members. -/
theorem foldlM_filterMap_eq {ι : Type _} {γ δ : Type} {g : γ → δ → Except ε γ}
    {g' : γ → ι → Except ε γ} {f : ι → Option δ} {p : ι → Bool}
    (hsome : ∀ i, p i = true → ∃ v, f i = some v ∧ ∀ c, g c v = g' c i)
    (hnone : ∀ i, p i = false → f i = none) (l : List ι) (c : γ) :
    (l.filterMap f).foldlM g c = (l.filter p).foldlM g' c := by
  rw [List.foldlM_filterMap, List.foldlM_filter]
  congr
  funext c i
  cases hp : p i with
  | true =>
    obtain ⟨v, hv, hg⟩ := hsome i hp
    simp only [hv, hg, if_true]
  | false => simp [hnone i hp]

end Except
