import SimSetup.Proofs.Template.Key
import SimSetup.Proofs.Text.Position
import SimSetup.Template.Substitution

/-!
# Filling a template by a single scan

`Scan` is the reference: it reads a template from left to right, one character or one placeholder at
a time, and stops at the first one that has no value or no meaning. Cutting the template into tokens
first, as `substitute` does, comes to the same for every template and all bindings.
-/

namespace SimSetup.Template

open Text (Span Position byteLength lineAfter columnAfter position_byteLength)

/-- What filling comes to. Of a dollar sign without a meaning only the place is told. -/
inductive Outcome
  | filled (text : String)
  | missing (key : String) (span : Span)
  | invalid (start line column : Nat)

namespace Outcome

def prepend (text : String) : Outcome → Outcome
  | filled rest => filled (text ++ rest)
  | missing key span => missing key span
  | invalid start line column => invalid start line column

theorem prepend_prepend (a b : String) (o : Outcome) :
    (o.prepend b).prepend a = o.prepend (a ++ b) := by
  cases o <;> simp [prepend, String.append_assoc]

def ofResult : Except Fault String → Outcome
  | .ok text => filled text
  | .error (.missingKey key span) => missing key span
  | .error (.invalidPlaceholder span position) => invalid span.start position.line position.column

section
variable {r : Except Fault String} {text key : String} {span : Span}

theorem ofResult_eq_filled : ofResult r = filled text ↔ r = .ok text := by
  rcases r with (_ | _) | _ <;> simp [ofResult]

theorem ofResult_eq_missing :
    ofResult r = missing key span ↔ r = .error (.missingKey key span) := by
  rcases r with (_ | _) | _ <;> simp [ofResult]

end

end Outcome

/-- `Scan bindings seen rest o`: after `seen`, filling `rest` comes to `o`. -/
inductive Scan (bindings : Bindings) : (seen rest : List Char) → Outcome → Prop
  | done : Scan bindings seen [] (.filled "")
  | copy (hc : c ≠ '$') (h : Scan bindings (seen ++ [c]) rest o) :
    Scan bindings seen (c :: rest) (o.prepend (.ofList [c]))
  | escape (h : Scan bindings (seen ++ ['$', '$']) rest o) :
    Scan bindings seen ('$' :: '$' :: rest) (o.prepend "$")
  | bound (hp : Placeholder key occurrence rest) (hv : bindings[String.ofList key]? = some value)
    (h : Scan bindings (seen ++ occurrence) rest o) :
    Scan bindings seen (occurrence ++ rest) (o.prepend value)
  | unbound (hp : Placeholder key occurrence rest) (hv : bindings[String.ofList key]? = none) :
    Scan bindings seen (occurrence ++ rest)
      (.missing (.ofList key) ⟨byteLength seen, byteLength (seen ++ occurrence)⟩)
  | invalid (h : Meaningless rest) :
    Scan bindings seen ('$' :: rest)
      (.invalid (byteLength seen) (lineAfter seen) (columnAfter seen))

-- ---------------------------------------------------------------------------
-- Filling token by token
-- ---------------------------------------------------------------------------

section
variable (template : String) (bindings : Bindings)

def fillFrom (offset : Nat) (ts : List Token) : Outcome :=
  .ofResult (String.join <$> (locate offset ts).mapM (expand template bindings))

theorem fillFrom_nil (offset : Nat) : fillFrom template bindings offset [] = .filled "" := rfl

variable {template bindings} {t : Token} {offset : Nat}

theorem fillFrom_cons_ok
    (h : expand template bindings (t, ⟨offset, offset + t.width⟩) = .ok value) (ts : List Token) :
    fillFrom template bindings offset (t :: ts) =
      (fillFrom template bindings (offset + t.width) ts).prepend value := by
  unfold fillFrom
  rw [locate, List.mapM_cons, h]
  cases (locate (offset + t.width) ts).mapM (expand template bindings) with
  | ok values =>
    show Outcome.filled (String.join (value :: values)) = .filled (value ++ String.join values)
    rw [String.join_cons]
  | error f => cases f <;> rfl

theorem fillFrom_cons_error
    (h : expand template bindings (t, ⟨offset, offset + t.width⟩) = .error f) (ts : List Token) :
    fillFrom template bindings offset (t :: ts) = .ofResult (.error f) := by
  unfold fillFrom
  rw [locate, List.mapM_cons, h]
  rfl

theorem fillFrom_text (run : String) (ts : List Token) :
    fillFrom template bindings offset (.text run :: ts) =
      (fillFrom template bindings (offset + byteLength run.toList) ts).prepend run :=
  fillFrom_cons_ok rfl ts

theorem fillFrom_key (h : t.key? = some key) (hv : bindings[key]? = some value) (ts : List Token) :
    fillFrom template bindings offset (t :: ts) =
      (fillFrom template bindings (offset + t.width) ts).prepend value := by
  refine fillFrom_cons_ok ?_ ts
  cases t <;> cases h <;> simp [expand, hv]

theorem fillFrom_missing (h : t.key? = some key) (hv : bindings[key]? = none) (ts : List Token) :
    fillFrom template bindings offset (t :: ts) = .missing key ⟨offset, offset + t.width⟩ := by
  have herror : expand template bindings (t, ⟨offset, offset + t.width⟩) =
      .error (.missingKey key ⟨offset, offset + t.width⟩) := by
    cases t <;> cases h <;> simp [expand, hv]
  exact fillFrom_cons_error herror ts

theorem fillFrom_meaningless (h : t = .stray ∨ ∃ key, t = .unclosed key) (ts : List Token) :
    fillFrom template bindings offset (t :: ts) =
      .invalid offset (Text.position template.toList offset).line
        (Text.position template.toList offset).column := by
  have herror : expand template bindings (t, ⟨offset, offset + t.width⟩) =
      .error (.invalidPlaceholder ⟨offset, offset + t.width⟩
        (Text.position template.toList offset)) := by
    obtain rfl | ⟨key, rfl⟩ := h <;> rfl
  exact fillFrom_cons_error herror ts

end

-- ---------------------------------------------------------------------------
-- The scan and the tokens
-- ---------------------------------------------------------------------------

theorem tokens_copy (hc : c ≠ '$') (rest : List Char) :
    tokens (c :: rest) = .text (.ofList (c :: rest.takeWhile (· ≠ '$'))) ::
      tokens (rest.dropWhile (· ≠ '$')) := by
  rw [tokens, next, if_neg hc]

/-- Literal text is one token, but it may as well be copied one character at a time. -/
theorem fillFrom_copy (hc : c ≠ '$') (rest : List Char) :
    fillFrom template bindings offset (tokens (c :: rest)) =
      (fillFrom template bindings (offset + c.utf8Size) (tokens rest)).prepend (.ofList [c]) := by
  rw [tokens_copy hc, fillFrom_text]
  cases rest with
  | nil => simp
  | cons d rest =>
    by_cases hd : d = '$'
    · subst hd
      simp
    · rw [tokens_copy hd, fillFrom_text, Outcome.prepend_prepend]
      simp [hd, Nat.add_assoc]

theorem Scan.fillFrom (h : Scan bindings seen rest o) (ht : template.toList = seen ++ rest) :
    fillFrom template bindings (byteLength seen) (tokens rest) = o := by
  induction h with
  | done => rw [tokens, fillFrom_nil]
  | copy hc _ ih =>
    have hrest := ih (by simpa using ht)
    rw [Text.byteLength_append] at hrest
    rw [fillFrom_copy hc, ← hrest]
    rfl
  | escape _ ih =>
    have hrest := ih (by simpa using ht)
    rw [Text.byteLength_append] at hrest
    rw [tokens, next_dollar, afterDollar, ← hrest]
    exact fillFrom_cons_ok rfl _
  | bound hp hv _ ih =>
    have hrest := ih (by simpa using ht)
    obtain ⟨t, hkey, hlexeme, htokens⟩ := hp.tokens
    rw [htokens, fillFrom_key hkey hv, Token.width, hlexeme, ← Text.byteLength_append, hrest]
  | unbound hp hv =>
    obtain ⟨t, hkey, hlexeme, htokens⟩ := hp.tokens
    rw [htokens, fillFrom_missing hkey hv, Token.width, hlexeme, ← Text.byteLength_append]
  | invalid hnone =>
    rw [tokens, next_dollar, fillFrom_meaningless hnone.afterDollar, ht, position_byteLength]

theorem exists_scan (bindings : Bindings) (seen rest : List Char) :
    ∃ o, Scan bindings seen rest o := by
  induction hn : rest.length using Nat.strongRecOn generalizing seen rest with
  | ind n ih =>
    cases rest with
    | nil => exact ⟨_, .done⟩
    | cons c cs =>
      by_cases hc : c = '$'
      · subst hc
        by_cases hescape : cs.head? = some '$'
        · obtain ⟨rest, rfl⟩ := List.head?_eq_some_iff.mp hescape
          obtain ⟨o, ho⟩ := ih rest.length (by simp_all; omega) (seen ++ ['$', '$']) rest rfl
          exact ⟨_, .escape ho⟩
        by_cases hp : ∃ key occurrence rest, Placeholder key occurrence rest ∧
            '$' :: cs = occurrence ++ rest
        · obtain ⟨key, occurrence, rest, hp, happ⟩ := hp
          rw [happ]
          cases hv : bindings[String.ofList key]? with
          | none => exact ⟨_, .unbound hp hv⟩
          | some value =>
            have hlt : rest.length < n := by
              rw [← hn, happ, List.length_append]
              have := List.length_pos_iff.mpr hp.occurrence_ne_nil
              omega
            obtain ⟨o, ho⟩ := ih rest.length hlt (seen ++ occurrence) rest rfl
            exact ⟨_, .bound hp hv ho⟩
        · exact ⟨_, .invalid ⟨hescape, fun key occurrence rest h heq =>
            hp ⟨key, occurrence, rest, h, heq⟩⟩⟩
      · obtain ⟨o, ho⟩ := ih cs.length (by simp_all; omega) (seen ++ [c]) cs rfl
        exact ⟨_, .copy hc ho⟩

theorem Scan.ofResult_substitute (h : Scan bindings [] template.toList o) :
    .ofResult (substitute template bindings) = o :=
  h.fillFrom rfl

/-- For every template and all bindings, `substitute` comes to what the scan comes to. -/
theorem scan_iff_substitute (template : String) (bindings : Bindings) (o : Outcome) :
    Scan bindings [] template.toList o ↔ .ofResult (substitute template bindings) = o := by
  constructor
  · intro h
    exact h.fillFrom rfl
  · rintro rfl
    obtain ⟨o, ho⟩ := exists_scan bindings [] template.toList
    have hsubstitute : .ofResult (substitute template bindings) = o := ho.fillFrom rfl
    rwa [hsubstitute]

end SimSetup.Template
