import Mathlib.Data.List.Lex
import Mathlib.Data.String.Basic
import ServiceHost.Proofs.Metrics.Registration
/-!
What a meter of calls has counted.

Samples stand in the order of their labels.  Changing the sample of some labels keeps the order, and
changes what is read under these labels and nothing else (`Samples.get_alter`).  `Samples.total`
adds up samples, in whatever order.  From these two follows what a meter shows after it has taken in
a call (`CallMeter.Grown`), and that the counters of a method always add up to the number of its
durations (`CallMeter.Sound`).
-/

namespace ServiceHost

/-- The order of texts is that of their characters. -/
theorem Text.before_iff (a b : List Char) : before a b = true ↔ a < b := by
  fun_induction before a b with
  | case1 => simp
  | case2 => simp
  | case3 => simp
  | case4 a as b bs ih =>
    rw [List.cons_lt_cons_iff, Bool.or_eq_true, Bool.and_eq_true, ih, beq_iff_eq,
      decide_eq_true_eq]
    rfl

theorem Text.precedes_iff (a b : String) : precedes a b = true ↔ a < b := by
  rw [precedes, before_iff, String.lt_iff_toList_lt]

namespace Metrics

/-- The order of labels is that of the library. -/
theorem labelsBefore_iff (a b : List String) : labelsBefore a b = true ↔ a < b := by
  fun_induction labelsBefore a b with
  | case1 => simp
  | case2 => simp
  | case3 => simp
  | case4 a as b bs ih =>
    rw [List.cons_lt_cons_iff, Bool.or_eq_true, Bool.and_eq_true, ih, beq_iff_eq,
      Text.precedes_iff]

namespace Samples

variable {α : Type} {default : α} {labels l : List String} {f : α → α} {s : Samples α}

/-- The labels go up. -/
def Ordered (s : Samples α) : Prop :=
  s.Pairwise fun x y => x.1 < y.1

theorem mem_alter {x : List String × α} (h : x ∈ s.alter default labels f) :
    x.1 = labels ∨ x ∈ s := by
  fun_induction alter default labels f s with
  | case1 =>
    rw [List.mem_singleton] at h
    exact .inl (congrArg Prod.fst h)
  | case2 y rest =>
    rcases List.mem_cons.1 h with rfl | h
    · exact .inl rfl
    · exact .inr (List.mem_cons_of_mem _ h)
  | case3 l y rest hl hbefore =>
    rcases List.mem_cons.1 h with rfl | h
    · exact .inl rfl
    · exact .inr h
  | case4 l y rest hl hbefore ih =>
    rcases List.mem_cons.1 h with rfl | h
    · exact .inr List.mem_cons_self
    · exact (ih h).imp_right (List.mem_cons_of_mem _)

theorem lt_of_not_labelsBefore (hl : l ≠ labels) (h : ¬ labelsBefore labels l = true) :
    l < labels :=
  lt_of_le_of_ne (not_lt.1 fun hlt => h ((labelsBefore_iff _ _).2 hlt)) hl

/-- Changing a sample keeps the order. -/
theorem Ordered.alter (h : Ordered s) : Ordered (s.alter default labels f) := by
  fun_induction Samples.alter default labels f s with
  | case1 => exact List.pairwise_singleton _ _
  | case2 y rest =>
    obtain ⟨hfirst, hrest⟩ := List.pairwise_cons.1 h
    exact List.pairwise_cons.2 ⟨hfirst, hrest⟩
  | case3 l y rest hl hbefore =>
    have hlt : labels < l := (labelsBefore_iff _ _).1 hbefore
    refine List.pairwise_cons.2 ⟨fun x hx => ?_, h⟩
    rcases List.mem_cons.1 hx with rfl | hx
    · exact hlt
    · exact hlt.trans ((List.pairwise_cons.1 h).1 x hx)
  | case4 l y rest hl hbefore ih =>
    obtain ⟨hfirst, hrest⟩ := List.pairwise_cons.1 h
    refine List.pairwise_cons.2 ⟨fun x hx => ?_, ih hrest⟩
    rcases mem_alter hx with heq | hx
    · show l < x.1
      rw [heq]
      exact lt_of_not_labelsBefore hl hbefore
    · exact hfirst x hx

theorem get_cons (default : α) (labels l : List String) (x : α) (s : Samples α) :
    get default labels ((l, x) :: s) = if labels = l then x else get default labels s := by
  unfold get
  rw [List.lookup_cons]
  by_cases hl : labels = l
  · rw [if_pos hl, beq_iff_eq.2 hl]
    rfl
  · rw [if_neg hl, beq_eq_false_iff_ne.2 hl]

/-- Nothing is found under labels that come before all others. -/
theorem get_of_lt (h : ∀ x ∈ s, labels < x.1) : get default labels s = default := by
  induction s with
  | nil => rfl
  | cons x s ih =>
    obtain ⟨hx, hs⟩ := List.forall_mem_cons.1 h
    rw [get_cons, if_neg (ne_of_lt hx), ih hs]

/-- **What is read after a change**: under the labels the changed sample, under others what was
there before. -/
theorem get_alter (h : Ordered s) (l : List String) :
    get default l (s.alter default labels f) =
      if l = labels then f (get default labels s) else get default l s := by
  fun_induction Samples.alter default labels f s with
  | case1 => exact get_cons default l labels _ []
  | case2 y rest =>
    rw [get_cons, get_cons, get_cons, if_pos rfl]
    split_ifs <;> rfl
  | case3 l' y rest hl hbefore =>
    have hlt : labels < l' := (labelsBefore_iff _ _).1 hbefore
    have hfresh : get default labels ((l', y) :: rest) = default := by
      refine get_of_lt (List.forall_mem_cons.2 ⟨hlt, fun x hx => ?_⟩)
      exact hlt.trans ((List.pairwise_cons.1 h).1 x hx)
    rw [get_cons, hfresh]
  | case4 l' y rest hl hbefore ih =>
    rw [get_cons, get_cons, get_cons, ih (List.pairwise_cons.1 h).2, if_neg (Ne.symm hl)]
    by_cases hl' : l = l'
    · subst hl'
      rw [if_pos rfl, if_neg hl, if_pos rfl]
    · rw [if_neg hl', if_neg hl']

/-! ### Totals -/

/-- The sum of the samples whose labels are wanted. -/
def total (wanted : List String → Bool) : Samples Nat → Nat
  | [] => 0
  | (l, n) :: rest => if wanted l then n + total wanted rest else total wanted rest

/-- A change by which the samples of all labels grow by the same number adds it once. -/
theorem total_alter (wanted : List String → Bool) {s : Samples Nat} {f : Nat → Nat} {more : Nat}
    (hf : ∀ n, f n = n + more) :
    total wanted (s.alter 0 labels f) = total wanted s + if wanted labels then more else 0 := by
  fun_induction Samples.alter 0 labels f s with
  | case1 => simp [total, hf]
  | case2 n rest =>
    simp only [total, hf]
    split_ifs <;> omega
  | case3 l n rest hl hbefore =>
    simp only [total, hf]
    split_ifs <;> omega
  | case4 l n rest hl hbefore ih =>
    simp only [total, ih]
    split_ifs <;> omega

end Samples

/-! ### Meters of calls -/

namespace CallMeter

variable {m : CallMeter}

/-- How many calls of a method ended with a status. -/
def requestCount (m : CallMeter) (method status : String) : Nat :=
  (m.count method status).2

/-- How many calls of a method there were, whatever their status. -/
def requestTotal (m : CallMeter) (method : String) : Nat :=
  m.requests.total fun labels => labels.head? == some method

/-- How many durations of calls of a method there are. -/
def durationCount (m : CallMeter) (method : String) : Nat :=
  (m.durations.get {} [method]).count

/-- The samples are in order, and the counters of a method add up to the number of durations. -/
structure Sound (m : CallMeter) : Prop where
  requests : m.requests.Ordered
  durations : m.durations.Ordered
  balanced : ∀ method, m.requestTotal method = m.durationCount method

/-- A meter that has counted one more call, by method and status, or no call. -/
structure Grown (m m' : CallMeter) (call : Option (String × String)) : Prop where
  requests : ∀ method status, m'.requestCount method status =
    m.requestCount method status + if call = some (method, status) then 1 else 0
  durations : ∀ method, m'.durationCount method =
    m.durationCount method + if call.map Prod.fst = some method then 1 else 0

theorem Grown.refl (m : CallMeter) : Grown m m none where
  requests _ _ := rfl
  durations _ := rfl

/-- A new meter has counted nothing. -/
theorem requestCount_of_create {namesp : String} (h : create namesp = .ok m)
    (method status : String) : m.requestCount method status = 0 := by
  rw [eq_of_create h]
  rfl

theorem sound_of_create {namesp : String} (h : create namesp = .ok m) : m.Sound := by
  rw [eq_of_create h]
  exact ⟨List.Pairwise.nil, List.Pairwise.nil, fun _ => rfl⟩

/-- Taking in a call counts it. -/
theorem Sound.grown_observe (h : m.Sound) (method status : String) (elapsed : Duration) :
    Grown m (m.observe method status elapsed) (some (method, status)) where
  requests method' status' := by
    show Samples.get 0 [method', status'] (m.requests.alter 0 [method, status] (· + 1)) =
      Samples.get 0 [method', status'] m.requests + _
    rw [Samples.get_alter h.requests]
    by_cases hsame : [method', status'] = [method, status]
    · obtain ⟨rfl, hstatus⟩ := List.cons.inj hsame
      obtain ⟨rfl, -⟩ := List.cons.inj hstatus
      rw [if_pos rfl, if_pos rfl]
    · have hother : some (method, status) ≠ some (method', status') := by
        rintro ⟨⟩
        exact hsame rfl
      rw [if_neg hsame, if_neg hother]
      rfl
  durations method' := by
    show (Samples.get {} [method'] (m.durations.alter {} [method] _)).count =
      (Samples.get {} [method'] m.durations).count + _
    rw [Samples.get_alter h.durations]
    by_cases hsame : method' = method
    · subst hsame
      rw [if_pos rfl, Option.map_some, if_pos rfl]
      rfl
    · rw [if_neg fun h => hsame (List.cons.inj h).1, Option.map_some,
        if_neg fun h => hsame (Option.some.inj h).symm]
      rfl

theorem Sound.observe (h : m.Sound) (method status : String) (elapsed : Duration) :
    (m.observe method status elapsed).Sound where
  requests := h.requests.alter
  durations := h.durations.alter
  balanced method' := by
    rw [(h.grown_observe method status elapsed).durations method', ← h.balanced method']
    show Samples.total _ (m.requests.alter 0 [method, status] (· + 1)) = _
    rw [Samples.total_alter _ fun n => rfl]
    simp only [List.head?_cons, Option.map_some, beq_iff_eq, requestTotal]

/-- Asking for a counter counts nothing, even if its sample comes into being. -/
theorem Sound.grown_count (h : m.Sound) (method status : String) :
    Grown m (m.count method status).1 none where
  requests method' status' := by
    show Samples.get 0 [method', status'] (m.requests.alter 0 [method, status] id) =
      Samples.get 0 [method', status'] m.requests
    rw [Samples.get_alter h.requests]
    split_ifs with hsame
    · rw [hsame]
      rfl
    · rfl
  durations _ := rfl

theorem Sound.count (h : m.Sound) (method status : String) : (m.count method status).1.Sound where
  requests := h.requests.alter
  durations := h.durations
  balanced method' := by
    rw [(h.grown_count method status).durations method', ← h.balanced method']
    show Samples.total _ (m.requests.alter 0 [method, status] id) = _
    have hid : ∀ n : Nat, id n = n + 0 := fun _ => rfl
    rw [Samples.total_alter _ hid, ite_self]
    rfl

end CallMeter

end Metrics

end ServiceHost
