import ServiceHost.Gateway.JsonOptions
import ServiceHost.Json.Reader
/-!
The two layouts of JSON text.

White space outside of string literals is all that tells them apart: without it a text in several
lines is the compact text of the same value, byte by byte (`unspaced_render`).  Where a literal ends
depends on the backslashes in it, so a text is followed through the three places that `Quoting`
names, and each piece that the printer writes ends at the place where it began.
-/

namespace ServiceHost

namespace Json

/-! ### White space outside of literals -/

/-- Where one is in a JSON text: outside of string literals, inside of one, or inside and behind a
backslash. -/
inductive Quoting where
  | outside
  | inside
  | escaped
  deriving DecidableEq

/-- Where one is after one more character. -/
def Quoting.next : Quoting → Char → Quoting
  | .outside, c => if c = '"' then .inside else .outside
  | .inside, c => if c = '"' then .outside else if c = '\\' then .escaped else .inside
  | .escaped, _ => .inside

section

variable {α : Type} (char : α → Char)

/-- Where one is after a stretch of text, whose elements show characters. -/
def Quoting.after (q : Quoting) (s : List α) : Quoting :=
  s.foldl (fun q a => q.next (char a)) q

/-- The text without the white space outside of its string literals. -/
def unspaced : Quoting → List α → List α
  | _, [] => []
  | q, a :: s =>
    if q = .outside ∧ isSpace (char a) = true then unspaced q s
    else a :: unspaced (q.next (char a)) s

variable {char} {q : Quoting} {a : α}

theorem unspaced_space (h : isSpace (char a) = true) (s : List α) :
    unspaced char .outside (a :: s) = unspaced char .outside s :=
  if_pos ⟨rfl, h⟩

theorem unspaced_kept (h : ¬(q = .outside ∧ isSpace (char a) = true)) (s : List α) :
    unspaced char q (a :: s) = a :: unspaced char (q.next (char a)) s :=
  if_neg h

theorem isSpace_iff {c : Char} :
    isSpace c = true ↔ c = ' ' ∨ c = '\n' ∨ c = '\t' ∨ c = '\r' := by
  simp [isSpace, or_assoc]

theorem next_of_isSpace {c : Char} (h : isSpace c = true) : Quoting.next .outside c = .outside := by
  refine if_neg ?_
  rintro rfl
  cases h

variable (char)

theorem unspaced_append (q : Quoting) (s t : List α) :
    unspaced char q (s ++ t) = unspaced char q s ++ unspaced char (q.after char s) t := by
  induction s generalizing q with
  | nil => rfl
  | cons a s ih =>
    rw [List.cons_append, Quoting.after, List.foldl_cons, ← Quoting.after]
    by_cases h : q = .outside ∧ isSpace (char a) = true
    · obtain ⟨rfl, hspace⟩ := h
      rw [unspaced_space hspace, unspaced_space hspace, next_of_isSpace hspace, ih]
    · rw [unspaced_kept h, unspaced_kept h, ih, List.cons_append]

theorem after_append (q : Quoting) (s t : List α) :
    q.after char (s ++ t) = (q.after char s).after char t :=
  List.foldl_append

end

/-! ### Pieces of text -/

/-- A stretch of text that begins and ends at the place `q`, and what is left of it. -/
structure Reduces (q : Quoting) (s t : List Char) : Prop where
  unspaced_eq : unspaced id q s = t
  after_eq : q.after id s = q

variable {q : Quoting} {s s' t t' : List Char} {c : Char}

namespace Reduces

theorem nil (q : Quoting) : Reduces q [] [] :=
  ⟨rfl, rfl⟩

theorem append (hs : Reduces q s s') (ht : Reduces q t t') : Reduces q (s ++ t) (s' ++ t') where
  unspaced_eq := by rw [unspaced_append, hs.after_eq, hs.unspaced_eq, ht.unspaced_eq]
  after_eq := by rw [after_append, hs.after_eq, ht.after_eq]

theorem flatMap {f g : Char → List Char} (h : ∀ c ∈ s, Reduces q (f c) (g c)) :
    Reduces q (s.flatMap f) (s.flatMap g) := by
  induction s with
  | nil => exact nil q
  | cons c s ih =>
    obtain ⟨hc, hs⟩ := List.forall_mem_cons.1 h
    rw [List.flatMap_cons, List.flatMap_cons]
    exact hc.append (ih hs)

theorem of_forall (h : ∀ c ∈ s, Reduces q [c] [c]) : Reduces q s s := by
  have hflat := flatMap h
  rw [List.flatMap_singleton'] at hflat
  exact hflat

theorem ite {p : Prop} [Decidable p] (hs : Reduces q s s') (ht : Reduces q t t') :
    Reduces q (if p then s else t) (if p then s' else t') := by
  split
  · exact hs
  · exact ht

end Reduces

theorem reduces_space (h : ∀ c ∈ s, isSpace c = true) : Reduces .outside s [] := by
  have hchar : ∀ c ∈ s, Reduces .outside [c] [] :=
    fun c hc => ⟨unspaced_space (h c hc) [], next_of_isSpace (h c hc)⟩
  have hflat := Reduces.flatMap hchar
  rw [List.flatMap_singleton', List.flatMap_eq_nil_iff.2 fun _ _ => rfl] at hflat
  exact hflat

/-- A character of a token that is no literal. -/
def IsBare (c : Char) : Prop :=
  isSpace c = false ∧ c ≠ '"'

theorem reduces_bare (h : ∀ c ∈ s, IsBare c) : Reduces .outside s s := by
  refine .of_forall fun c hc => ?_
  obtain ⟨hspace, hquote⟩ := h c hc
  have hkept : ¬(Quoting.outside = .outside ∧ isSpace c = true) := by
    rw [hspace]
    exact fun hfalse => Bool.false_ne_true hfalse.2
  exact ⟨unspaced_kept hkept [], if_neg hquote⟩

/-! ### Literals -/

theorem reduces_inside (hquote : '"' ∉ s) (hslash : '\\' ∉ s) : Reduces .inside s s := by
  refine .of_forall fun c hc => ?_
  have hkept : ¬(Quoting.inside = .outside ∧ isSpace c = true) := fun h => Quoting.noConfusion h.1
  have hnext : Quoting.next .inside c = .inside := by
    rw [Quoting.next, if_neg (ne_of_mem_of_not_mem hc hquote),
      if_neg (ne_of_mem_of_not_mem hc hslash)]
  exact ⟨unspaced_kept hkept [], hnext⟩

theorem reduces_writeHex {n : Nat} (h : n < 0x20) :
    Reduces .inside ('\\' :: 'u' :: Numeral.writeHex 4 n)
      ('\\' :: 'u' :: Numeral.writeHex 4 n) := by
  have hdigits : ∀ n < 0x20, '"' ∉ Numeral.writeHex 4 n ∧ '\\' ∉ Numeral.writeHex 4 n := by
    decide
  obtain ⟨hquote, hslash⟩ := hdigits n h
  have hmark : Reduces .inside ['\\', 'u'] ['\\', 'u'] := ⟨rfl, rfl⟩
  exact hmark.append (reduces_inside hquote hslash)

theorem reduces_escapeChar (c : Char) : Reduces .inside (escapeChar c) (escapeChar c) := by
  unfold escapeChar
  split
  any_goals exact ⟨rfl, rfl⟩
  next hquote hslash _ _ _ _ _ =>
    split
    next h => exact reduces_writeHex h
    next =>
      apply reduces_inside
      · exact fun h => hquote (List.mem_singleton.1 h).symm
      · exact fun h => hslash (List.mem_singleton.1 h).symm

/-- A literal is kept, and one is outside again behind it. -/
theorem reduces_quote (s : List Char) : Reduces .outside (quote s) (quote s) := by
  have hbody : Reduces .inside (s.flatMap escapeChar) (s.flatMap escapeChar) :=
    .flatMap fun c _ => reduces_escapeChar c
  have hopening : Quoting.after id .outside ['"'] = .inside := rfl
  have hquote : quote s = ['"'] ++ (s.flatMap escapeChar ++ ['"']) := rfl
  constructor
  · rw [hquote, unspaced_append, unspaced_append, hopening, hbody.after_eq, hbody.unspaced_eq]
    rfl
  · rw [hquote, after_append, after_append, hopening, hbody.after_eq]
    rfl

/-! ### Numbers -/

theorem isBare_of_isDigit (h : c.isDigit = true) : IsBare c := by
  refine ⟨?_, ?_⟩
  · rw [← Bool.not_eq_true, isSpace_iff]
    rintro (rfl | rfl | rfl | rfl) <;> cases h
  · rintro rfl
    cases h

theorem isBare_write (n : Nat) : ∀ c ∈ Numeral.write n, IsBare c :=
  fun _ hc => isBare_of_isDigit (Nat.isDigit_of_mem_toDigits (by decide) (by decide) hc)

open Decimal

theorem isBare_normalise (n : Nat) (k : Int) : ∀ c ∈ (Shortest.normalise n k).digits, IsBare c := by
  intro c hc
  rw [Shortest.normalise, List.mem_reverse] at hc
  exact isBare_write n c (List.mem_reverse.1 ((List.dropWhile_sublist _).subset hc))

theorem isBare_shortest (tie : Tie) (m : Nat) (e : Int) :
    ∀ c ∈ (shortest tie m e).digits, IsBare c := by
  unfold shortest
  dsimp only
  split <;> exact isBare_normalise _ _

theorem isBare_zeros (n : Nat) : ∀ c ∈ List.replicate n '0', IsBare c :=
  fun _ hc => List.eq_of_mem_replicate hc ▸ isBare_of_isDigit rfl

theorem isBare_positional {x : Scientific} (h : ∀ c ∈ x.digits, IsBare c) :
    (∀ c ∈ x.positional.1, IsBare c) ∧ ∀ c ∈ x.positional.2, IsBare c := by
  unfold Scientific.positional
  split
  · refine ⟨List.forall_mem_append.2 ⟨?_, isBare_zeros _⟩, ?_⟩
    · exact fun c hc => h c (List.mem_of_mem_take hc)
    · exact fun c hc => h c (List.mem_of_mem_drop hc)
  · refine ⟨?_, List.forall_mem_append.2 ⟨isBare_zeros _, h⟩⟩
    exact List.forall_mem_singleton.2 (isBare_of_isDigit rfl)

theorem reduces_writeReal (x : Double) : Reduces .outside (writeReal x) (writeReal x) := by
  cases x with
  | nan => exact ⟨rfl, rfl⟩
  | infinite negative => exact ⟨rfl, rfl⟩
  | finite negative m e =>
    have hdigits := isBare_shortest .toEven m e
    obtain ⟨hwhole, hpart⟩ := isBare_positional hdigits
    have hzero : Reduces .outside ['0'] ['0'] := ⟨rfl, rfl⟩
    have hpoint : Reduces .outside ['.'] ['.'] := ⟨rfl, rfl⟩
    have hmark : Reduces .outside ['e'] ['e'] := ⟨rfl, rfl⟩
    have hminus : Reduces .outside ['-'] ['-'] := ⟨rfl, rfl⟩
    rw [writeReal]
    split
    · exact (Reduces.ite hminus (.nil _)).append ⟨rfl, rfl⟩
    · dsimp only
      split
      · exact Reduces.ite hminus (.nil _)
          |>.append (reduces_bare hwhole)
          |>.append (hpoint.append (.ite hzero (reduces_bare hpart)))
      · -- the first digit, the others behind a point, and the exponent with its sign
        have hhead : ∀ c ∈ (shortest .toEven m e).digits.take 1, IsBare c :=
          fun c hc => hdigits c (List.mem_of_mem_take hc)
        have htail : ∀ c ∈ (shortest .toEven m e).digits.drop 1, IsBare c :=
          fun c hc => hdigits c (List.mem_of_mem_drop hc)
        have hsign : ∀ p [Decidable p],
            Reduces .outside [if p then '-' else '+'] [if p then '-' else '+'] := by
          intro p _
          split <;> exact ⟨rfl, rfl⟩
        exact Reduces.ite hminus (.nil _)
          |>.append (reduces_bare hhead)
          |>.append (.ite (.nil _) (hpoint.append (reduces_bare htail)))
          |>.append (hmark.append ((hsign _).append (reduces_bare (isBare_write _))))

theorem reduces_numberWrite (n : Number) : Reduces .outside n.write n.write := by
  cases n with
  | integer n =>
    have hminus : Reduces .outside ['-'] ['-'] := ⟨rfl, rfl⟩
    exact (Reduces.ite hminus (.nil _)).append (reduces_bare (isBare_write _))
  | real x => exact reduces_writeReal x

/-! ### Values -/

/-- A layout that adds nothing but white space. -/
def Layout.IsBlank : Layout → Prop
  | .compact => True
  | .multiline indent => ∀ c ∈ indent, isSpace c = true

section

variable {layout : Layout} (h : layout.IsBlank)
include h

theorem reduces_lineBreak (depth : Nat) :
    Reduces .outside (layout.lineBreak depth) (Layout.compact.lineBreak depth) := by
  cases layout with
  | compact => exact .nil _
  | multiline indent =>
    have hspace : ∀ c ∈ '\n' :: (List.replicate depth indent).flatten, isSpace c = true := by
      refine List.forall_mem_cons.2 ⟨rfl, fun c hc => ?_⟩
      obtain ⟨copy, hcopy, hmem⟩ := List.mem_flatten.1 hc
      exact h c (List.eq_of_mem_replicate hcopy ▸ hmem)
    exact reduces_space hspace

omit h in
theorem reduces_colon (layout : Layout) : Reduces .outside layout.colon Layout.compact.colon := by
  cases layout <;> exact ⟨rfl, rfl⟩

mutual

theorem reduces_writeAt (depth : Nat) :
    ∀ v, Reduces .outside (writeAt layout depth v) (writeAt .compact depth v)
  | .null => ⟨rfl, rfl⟩
  | .bool true => ⟨rfl, rfl⟩
  | .bool false => ⟨rfl, rfl⟩
  | .number n => reduces_numberWrite n
  | .text s => reduces_quote s.toList
  | .list [] => ⟨rfl, rfl⟩
  | .list (v :: rest) => by
    have hopening : Reduces .outside ['['] ['['] := ⟨rfl, rfl⟩
    have hclosing : Reduces .outside [']'] [']'] := ⟨rfl, rfl⟩
    rw [writeAt, writeAt]
    exact hopening
      |>.append (reduces_lineBreak h (depth + 1))
      |>.append (reduces_writeAt (depth + 1) v)
      |>.append (reduces_writeItems (depth + 1) rest)
      |>.append (reduces_lineBreak h depth)
      |>.append hclosing
  | .object [] => ⟨rfl, rfl⟩
  | .object ((name, v) :: rest) => by
    have hopening : Reduces .outside ['\x7b'] ['\x7b'] := ⟨rfl, rfl⟩
    have hclosing : Reduces .outside ['\x7d'] ['\x7d'] := ⟨rfl, rfl⟩
    rw [writeAt, writeAt]
    exact hopening
      |>.append (reduces_lineBreak h (depth + 1))
      |>.append (reduces_quote name.toList)
      |>.append (reduces_colon layout)
      |>.append (reduces_writeAt (depth + 1) v)
      |>.append (reduces_writeMembers (depth + 1) rest)
      |>.append (reduces_lineBreak h depth)
      |>.append hclosing

theorem reduces_writeItems (depth : Nat) :
    ∀ items, Reduces .outside (writeItems layout depth items) (writeItems .compact depth items)
  | [] => ⟨rfl, rfl⟩
  | v :: rest => by
    have hcomma : Reduces .outside [','] [','] := ⟨rfl, rfl⟩
    rw [writeItems, writeItems]
    exact hcomma
      |>.append (reduces_lineBreak h depth)
      |>.append (reduces_writeAt depth v)
      |>.append (reduces_writeItems depth rest)

theorem reduces_writeMembers (depth : Nat) :
    ∀ members, Reduces .outside (writeMembers layout depth members)
      (writeMembers .compact depth members)
  | [] => ⟨rfl, rfl⟩
  | (name, v) :: rest => by
    have hcomma : Reduces .outside [','] [','] := ⟨rfl, rfl⟩
    rw [writeMembers, writeMembers]
    exact hcomma
      |>.append (reduces_lineBreak h depth)
      |>.append (reduces_quote name.toList)
      |>.append (reduces_colon layout)
      |>.append (reduces_writeAt depth v)
      |>.append (reduces_writeMembers depth rest)

end

/-- **Layouts.**  Without the white space outside of its literals a text is the compact one. -/
theorem unspaced_write (v : Json) : unspaced id .outside (v.write layout) = v.write .compact :=
  (reduces_writeAt h 0 v).unspaced_eq

end

/-! ### Bytes -/

/-- The bytes of a text in UTF-8. -/
def bytes (s : List Char) : List UInt8 :=
  s.flatMap String.utf8EncodeChar

theorem toNat_ofUInt8 (b : UInt8) : (Char.ofUInt8 b).toNat = b.toNat :=
  UInt8.toNat_toUInt32 b

/-- Where one is after a character that is neither a quote nor a backslash. -/
def Quoting.resume : Quoting → Quoting
  | .escaped => .inside
  | q => q

/-- Characters beyond ASCII are neither white space nor quotes nor backslashes. -/
theorem next_of_le (hc : 0x80 ≤ c.toNat) (q : Quoting) :
    ¬(q = .outside ∧ isSpace c = true) ∧ q.next c = q.resume := by
  have hne : ∀ d : Char, d.toNat < 0x80 → c ≠ d := by
    rintro d hd rfl
    omega
  refine ⟨?_, ?_⟩
  · rintro ⟨-, hspace⟩
    obtain rfl | rfl | rfl | rfl := isSpace_iff.1 hspace <;> exact absurd hc (by decide)
  · cases q with
    | outside => exact if_neg (hne '"' (by decide))
    | inside =>
      rw [Quoting.next, if_neg (hne '"' (by decide)), if_neg (hne '\\' (by decide))]
      rfl
    | escaped => rfl

theorem resume_resume (q : Quoting) : q.resume.resume = q.resume := by
  cases q <;> rfl

section

variable {α : Type} {char : α → Char} {l : List α}

theorem unspaced_of_le (h : ∀ a ∈ l, 0x80 ≤ (char a).toNat) (q : Quoting) :
    unspaced char q l = l := by
  induction l generalizing q with
  | nil => rfl
  | cons a l ih =>
    obtain ⟨ha, hl⟩ := List.forall_mem_cons.1 h
    rw [unspaced_kept (next_of_le ha q).1, ih hl]

theorem after_of_le (h : ∀ a ∈ l, 0x80 ≤ (char a).toNat) (hne : l ≠ []) (q : Quoting) :
    q.after char l = q.resume := by
  induction l generalizing q with
  | nil => exact absurd rfl hne
  | cons a l ih =>
    obtain ⟨ha, hl⟩ := List.forall_mem_cons.1 h
    have hafter : q.after char (a :: l) = q.resume.after char l := by
      rw [Quoting.after, List.foldl_cons, (next_of_le ha q).2, Quoting.after]
    by_cases hnil : l = []
    · rw [hafter, hnil, Quoting.after, List.foldl_nil]
    · rw [hafter, ih hl hnil, resume_resume]

end

/-- A character of ASCII is one byte, which shows it. -/
theorem utf8EncodeChar_of_lt (hc : c.toNat < 0x80) :
    ∃ b, String.utf8EncodeChar c = [b] ∧ Char.ofUInt8 b = c := by
  have hle : c.val.toNat ≤ 0x7f := Nat.le_of_lt_succ hc
  have hlt : c.val.toNat < UInt8.size := Nat.lt_of_le_of_lt hle (by decide)
  refine ⟨UInt8.ofNat c.val.toNat, if_pos hle, Char.toNat_inj.1 ?_⟩
  rw [toNat_ofUInt8, UInt8.toNat_ofNat_of_lt' hlt]
  rfl

/-- The bytes of any other character show none of ASCII. -/
theorem le_of_mem_utf8EncodeChar (hc : 0x80 ≤ c.toNat) :
    ∀ b ∈ String.utf8EncodeChar c, 0x80 ≤ (Char.ofUInt8 b).toNat := by
  have hlarge : ∀ n, 0x80 ≤ n → n < 0x100 → 0x80 ≤ (Char.ofUInt8 (UInt8.ofNat n)).toNat := by
    intro n hn hlt
    rw [toNat_ofUInt8, UInt8.toNat_ofNat_of_lt' hlt]
    exact hn
  have hascii : ¬c.val.toNat ≤ 0x7f := Nat.not_le.2 hc
  unfold String.utf8EncodeChar
  dsimp only
  rw [if_neg hascii]
  intro b hb
  split at hb
  · simp only [List.mem_cons, List.not_mem_nil, or_false] at hb
    obtain rfl | rfl := hb <;> exact hlarge _ (by omega) (by omega)
  split at hb
  · simp only [List.mem_cons, List.not_mem_nil, or_false] at hb
    obtain rfl | rfl | rfl := hb <;> exact hlarge _ (by omega) (by omega)
  · simp only [List.mem_cons, List.not_mem_nil, or_false] at hb
    obtain rfl | rfl | rfl | rfl := hb <;> exact hlarge _ (by omega) (by omega)

theorem unspaced_bytes (q : Quoting) (s : List Char) :
    unspaced Char.ofUInt8 q (bytes s) = bytes (unspaced id q s) := by
  induction s generalizing q with
  | nil => rfl
  | cons c s ih =>
    have hbytes : bytes (c :: s) = String.utf8EncodeChar c ++ bytes s := List.flatMap_cons
    by_cases hc : c.toNat < 0x80
    · obtain ⟨b, hb, hshows⟩ := utf8EncodeChar_of_lt hc
      rw [hbytes, hb, List.singleton_append]
      by_cases h : q = .outside ∧ isSpace c = true
      · obtain ⟨rfl, hspace⟩ := h
        have htext : unspaced id .outside (c :: s) = unspaced id .outside s :=
          unspaced_space hspace s
        rw [unspaced_space (by rw [hshows]; exact hspace), htext, ih]
      · have htext : unspaced id q (c :: s) = c :: unspaced id (q.next c) s := unspaced_kept h s
        rw [unspaced_kept (by rw [hshows]; exact h), htext, hshows, ih, bytes, bytes,
          List.flatMap_cons, hb]
        rfl
    · have hc := Nat.not_lt.1 hc
      have hlarge := le_of_mem_utf8EncodeChar hc
      obtain ⟨hkept, hnext⟩ := next_of_le hc q
      have htext : unspaced id q (c :: s) = c :: unspaced id q.resume s := by
        rw [← hnext]
        exact unspaced_kept hkept s
      rw [hbytes, unspaced_append, unspaced_of_le hlarge,
        after_of_le hlarge String.utf8EncodeChar_ne_nil, ih, htext]
      exact List.flatMap_cons.symm

end Json

namespace Gateway.JsonOptions

open Json (isSpace unspaced bytes)

/-- **Layouts differ in white space only.**  Take any value and an indent of white space.  Without
the white space outside of its string literals the text in several lines is the compact text of the
value, character by character and byte by byte. -/
theorem unspaced_render (o : JsonOptions) (v : Json)
    (h : ∀ c ∈ o.indent.toList, isSpace c = true) :
    unspaced id .outside ({ o with multiline := true }.render v) =
      { o with multiline := false }.render v ∧
    unspaced Char.ofUInt8 .outside (bytes ({ o with multiline := true }.render v)) =
      bytes ({ o with multiline := false }.render v) := by
  have htext : unspaced id .outside ({ o with multiline := true }.render v) =
      { o with multiline := false }.render v :=
    @Json.unspaced_write (.multiline o.indent.toList) h (o.written v)
  exact ⟨htext, by rw [Json.unspaced_bytes, htext]⟩

/-- A value with empty lists and objects in others, and with quotes, backslashes and blanks in its
texts. -/
def nestedValue : Json :=
  .object [("a \"", .list [.text " \\\" é\n", .list [], .object []]),
    ("b\\", .list [.list [.object [("", .null)]], .number (.integer (-7))])]

/-- Printed over several lines with a blank and a tab to indent, and then relieved of the blanks
outside its texts, it is what is printed on one line; so are its bytes. -/
theorem unspaced_render_nested : (∀ c ∈ " \t".toList, isSpace c = true) ∧
    unspaced id .outside (({ indent := " \t" } : JsonOptions).render nestedValue) =
      ({ indent := " \t", multiline := false } : JsonOptions).render nestedValue ∧
    unspaced Char.ofUInt8 .outside
        (bytes (({ indent := " \t" } : JsonOptions).render nestedValue)) =
      bytes (({ indent := " \t", multiline := false } : JsonOptions).render nestedValue) :=
  have hindent : ∀ c ∈ " \t".toList, isSpace c = true := List.all_eq_true.1 rfl
  ⟨hindent, unspaced_render { indent := " \t" } nestedValue hindent⟩

end Gateway.JsonOptions

end ServiceHost
