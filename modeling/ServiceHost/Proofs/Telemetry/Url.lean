import ServiceHost.Proofs.Text
import ServiceHost.Telemetry.Export
/-!
The address that a signal is sent to, in its canonical form.

An endpoint has an authority, and may have a scheme and a path.  However it is written, with blanks
around it and slashes behind it, what comes out is a scheme, the authority and a path, of which only
those that the endpoint lacks are filled in; and what has come out once comes out of itself again
(`url_canonical`).
-/

namespace ServiceHost.Export

open Text

/-! ### Endpoints and how they are written -/

/-- The schemes of endpoints. -/
inductive Scheme where
  | http
  | https
  deriving DecidableEq

/-- The beginning of an address of the scheme. -/
def Scheme.text : Scheme → List Char
  | .http => "http://".toList
  | .https => "https://".toList

/-- A path.  A final slash does not belong to it. -/
structure Path where
  text : List Char
  head?_eq : text.head? = some '/'
  getLast?_ne : text.getLast? ≠ some '/'
  unblank : ∀ c ∈ text, isBlank c = false

/-- An endpoint.  Where it has no scheme, what it has must not look like one. -/
structure Endpoint where
  scheme : Option Scheme
  authority : List Char
  path : Option Path
  authority_ne_nil : authority ≠ []
  slash_notMem : '/' ∉ authority
  unblank : ∀ c ∈ authority, isBlank c = false
  schemeless : scheme = none → ∀ s : Scheme, ¬s.text <+: authority ++ path.elim [] Path.text

namespace Endpoint

variable {e : Endpoint}

/-- The endpoint without its scheme. -/
def rest (e : Endpoint) : List Char :=
  e.authority ++ e.path.elim [] Path.text

/-- The text of an endpoint. -/
def text (e : Endpoint) : List Char :=
  e.scheme.elim [] Scheme.text ++ e.rest

/-- Is the endpoint written by this text?  Blanks may stand around it, and slashes behind it. -/
def Writes (e : Endpoint) (t : List Char) : Prop :=
  ∃ (before after : Blanks) (slashes : Nat),
    t = before.text ++ (e.text ++ List.replicate slashes '/') ++ after.text

/-- The scheme that the endpoint has, or else the one that is asked for. -/
def schemeFor (e : Endpoint) (insecure : Bool) : Scheme :=
  e.scheme.getD (if insecure then .http else .https)

/-- The address that the endpoint stands for when it is completed by a scheme and the path of a
signal. -/
def completed (e : Endpoint) (insecure : Bool) (signal : List Char) : List Char :=
  (e.schemeFor insecure).text ++ (e.authority ++ e.path.elim signal Path.text)

end Endpoint

/-! ### Reading a written endpoint -/

theorem unblank_of_any {t : List Char} (h : t.any isBlank = false) :
    ∀ c ∈ t, isBlank c = false :=
  fun c hc => Bool.eq_false_iff.2 (List.any_eq_false.1 h c hc)

theorem Scheme.unblank (s : Scheme) : ∀ c ∈ s.text, isBlank c = false := by
  apply unblank_of_any
  cases s <;> rfl

theorem unblank_elim {α : Type} {f : α → List Char} (hf : ∀ a, ∀ c ∈ f a, isBlank c = false)
    (o : Option α) : ∀ c ∈ o.elim [] f, isBlank c = false := by
  cases o with
  | none => exact fun c hc => by cases hc
  | some a => exact hf a

/-- The first `://` is that of the scheme. -/
theorem afterScheme_append (s : Scheme) (t : List Char) : afterScheme (s.text ++ t) = some t := by
  cases s <;> rfl

namespace Endpoint

variable {e : Endpoint} {t : List Char}

theorem rest_ne_nil (e : Endpoint) : e.rest ≠ [] := by
  rw [rest]
  exact List.append_ne_nil_of_left_ne_nil e.authority_ne_nil _

theorem rest_unblank (e : Endpoint) : ∀ c ∈ e.rest, isBlank c = false :=
  List.forall_mem_append.2 ⟨e.unblank, unblank_elim Path.unblank e.path⟩

theorem text_unblank (e : Endpoint) : ∀ c ∈ e.text, isBlank c = false :=
  List.forall_mem_append.2 ⟨unblank_elim Scheme.unblank e.scheme, e.rest_unblank⟩

/-- An endpoint does not end with a slash, since neither its authority nor its path does. -/
theorem getLast?_text_ne (e : Endpoint) : e.text.getLast? ≠ some '/' := by
  rw [text, List.getLast?_append_of_ne_nil _ e.rest_ne_nil, rest]
  cases e.path with
  | none =>
    rw [Option.elim_none, List.append_nil]
    exact fun h => e.slash_notMem (List.mem_of_getLast? h)
  | some p =>
    have hp : p.text ≠ [] := by
      intro hnil
      have hhead := p.head?_eq
      rw [hnil] at hhead
      cases hhead
    rw [Option.elim_some, List.getLast?_append_of_ne_nil _ hp]
    exact p.getLast?_ne

/-- What is left of a written endpoint without outer blanks and final slashes. -/
theorem Writes.stripped (h : e.Writes t) : dropRightWhile (· == '/') (trim t) = e.text := by
  obtain ⟨before, after, slashes, rfl⟩ := h
  have hunblank : ∀ c ∈ e.text ++ List.replicate slashes '/', isBlank c = false := by
    refine List.forall_mem_append.2 ⟨e.text_unblank, fun c hc => ?_⟩
    rw [List.eq_of_mem_replicate hc]
    rfl
  rw [trim_padded, trim_of_forall hunblank, dropRightWhile_append_of_forall]
  · refine dropRightWhile_eq_self_iff.2 fun c hc => ?_
    exact beq_eq_false_iff_ne.2 fun hslash => e.getLast?_text_ne (hslash ▸ hc)
  · exact fun c hc => beq_iff_eq.2 (List.eq_of_mem_replicate hc)

/-- The scheme of an endpoint is found, and one that it lacks is filled in. -/
theorem Writes.withScheme_eq (h : e.Writes t) (insecure : Bool) :
    withScheme t insecure = (e.schemeFor insecure).text ++ e.rest := by
  have hfound : (startsWith "http://".toList e.text || startsWith "https://".toList e.text) =
      e.scheme.isSome := by
    rw [Bool.eq_iff_iff, Bool.or_eq_true, startsWith_iff, startsWith_iff, text]
    cases hscheme : e.scheme with
    | none =>
      have hplain := e.schemeless hscheme
      simp only [Option.elim_none, List.nil_append, Option.isSome_none, Bool.false_eq_true,
        iff_false]
      exact fun hstart => hstart.elim (hplain .http) (hplain .https)
    | some s =>
      refine iff_of_true ?_ rfl
      cases s with
      | http => exact .inl ⟨e.rest, rfl⟩
      | https => exact .inr ⟨e.rest, rfl⟩
  rw [withScheme, h.stripped, hfound, schemeFor, text]
  cases e.scheme with
  | some s => rfl
  | none => cases insecure <;> rfl

/-- A slash behind the scheme is that of a path. -/
theorem contains_rest (e : Endpoint) : e.rest.contains '/' = e.path.isSome := by
  rw [Bool.eq_iff_iff, List.contains_iff_mem, rest, List.mem_append]
  cases e.path with
  | none => simpa using e.slash_notMem
  | some p => simpa using .inr (List.mem_of_mem_head? p.head?_eq)

/-- **Completion.**  However an endpoint is written, only what it lacks is filled in. -/
theorem Writes.url_eq (h : e.Writes t) (insecure : Bool) (signal : List Char) :
    url t insecure signal = e.completed insecure signal := by
  simp only [url, h.withScheme_eq, afterScheme_append, contains_rest]
  rw [completed, rest]
  cases e.path with
  | none => simp only [Option.isSome_none, Bool.false_eq_true, if_false, Option.elim_none,
      List.append_nil, List.append_assoc]
  | some p => simp only [Option.isSome_some, if_true, Option.elim_some]

/-! ### Completing twice -/

/-- The endpoint with the scheme that is asked for and the path of a signal, where it lacks them. -/
def fill (e : Endpoint) (insecure : Bool) (signal : Path) : Endpoint :=
  { e with
    scheme := some (e.schemeFor insecure)
    path := some (e.path.getD signal)
    schemeless := fun h => by cases h }

/-- The completed address is that of an endpoint that lacks nothing. -/
theorem completed_eq_text_fill (e : Endpoint) (insecure : Bool) (signal : Path) :
    e.completed insecure signal.text = (e.fill insecure signal).text := by
  cases h : e.path <;> simp [completed, text, rest, fill, h]

theorem writes_text (e : Endpoint) : e.Writes e.text :=
  ⟨.none, .none, 0, by simp [Blanks.none]⟩

/-- Nothing is filled in where nothing is lacking. -/
theorem completed_fill (e : Endpoint) (insecure insecure' : Bool) (signal : Path)
    (signal' : List Char) :
    (e.fill insecure signal).completed insecure' signal' = (e.fill insecure signal).text :=
  rfl

end Endpoint

/-- **Completion is canonical.**  However an endpoint is written, the address of a signal is its
scheme, its authority and its path, with the scheme that is asked for and the path of the signal
where it has none.  So outer blanks and final slashes do not matter, nor does it matter which scheme
is asked for where the endpoint has one, and the address is completed to itself, whatever scheme and
signal are asked for then. -/
theorem url_canonical {e : Endpoint} {t : List Char} (h : e.Writes t) (insecure : Bool)
    (signal : Path) :
    url t insecure signal.text =
      (e.scheme.getD (if insecure then .http else .https)).text ++ e.authority ++
        (e.path.getD signal).text ∧
    (∀ t', e.Writes t' → url t' insecure signal.text = url t insecure signal.text) ∧
    (e.scheme.isSome → ∀ insecure', url t insecure' signal.text = url t insecure signal.text) ∧
    ∀ (insecure' : Bool) (signal' : List Char),
      url (url t insecure signal.text) insecure' signal' = url t insecure signal.text := by
  refine ⟨?_, fun t' h' => ?_, fun hscheme insecure' => ?_, fun insecure' signal' => ?_⟩
  · rw [h.url_eq, Endpoint.completed, Endpoint.schemeFor, List.append_assoc]
    cases e.path <;> rfl
  · rw [h.url_eq, h'.url_eq]
  · obtain ⟨s, hs⟩ := Option.isSome_iff_exists.1 hscheme
    simp only [h.url_eq, Endpoint.completed, Endpoint.schemeFor, hs, Option.getD_some]
  · rw [h.url_eq, Endpoint.completed_eq_text_fill,
      (Endpoint.writes_text _).url_eq insecure' signal', Endpoint.completed_fill]

example : url " localhost:4318/ ".toList true "/v1/traces".toList =
    "http://localhost:4318/v1/traces".toList := by decide

/-- The path of traces. -/
def tracesPath : Path where
  text := "/v1/traces".toList
  head?_eq := rfl
  getLast?_ne := by decide
  unblank := unblank_of_any rfl

/-- An endpoint with colons in its authority, and a path with another `://`. -/
def loopbackEndpoint : Endpoint where
  scheme := some .https
  authority := "[::1]:4318".toList
  path := some ⟨"/a://b".toList, rfl, by decide, unblank_of_any rfl⟩
  authority_ne_nil := by decide
  slash_notMem := by decide
  unblank := unblank_of_any rfl
  schemeless h := by cases h

/-- An endpoint with a scheme and a path of its own is kept, whichever scheme is asked for. -/
theorem url_canonical_loopback :
    loopbackEndpoint.Writes "\t https://[::1]:4318/a://b// ".toList ∧
    loopbackEndpoint.scheme.isSome ∧
    url "\t https://[::1]:4318/a://b// ".toList true tracesPath.text =
      "https://[::1]:4318/a://b".toList ∧
    url "\t https://[::1]:4318/a://b// ".toList false tracesPath.text =
      url "\t https://[::1]:4318/a://b// ".toList true tracesPath.text := by
  have hwrites : loopbackEndpoint.Writes "\t https://[::1]:4318/a://b// ".toList :=
    ⟨⟨"\t ".toList, List.all_eq_true.1 rfl⟩, ⟨" ".toList, List.all_eq_true.1 rfl⟩, 2, rfl⟩
  obtain ⟨hurl, -, hinsecure, -⟩ := url_canonical hwrites true tracesPath
  exact ⟨hwrites, rfl, hurl, hinsecure rfl false⟩

end ServiceHost.Export
