import SimSetup.Proofs.Template.Place
import SimSetup.Proofs.Template.Scan

/-!
# What the lexer gives is the only way to cut a template

The tokens of a template are described without the lexer: their spans follow one another from the
start of the template to its end, and each slice has the form of its token, as long as that form
goes. No other list of tokens is like that.
-/

namespace SimSetup.Template

open Text (Span byteLength before_byteLength)

inductive Form
  | text
  | escape
  | named (key : String)
  | braced (key : String)
  | stray
  deriving DecidableEq, Repr

def Token.form : Token → Form
  | text _ => .text
  | escape => .escape
  | named key => .named key
  | braced key => .braced key
  | stray | unclosed _ => .stray

def Opens (cs : List Char) : Prop := ∃ key rest, IsKey key ∧ cs = '{' :: (key ++ rest)

/-- `form.Fits slice rest`: before `rest`, `slice` is a token of the form. Literal text goes on to
the next dollar sign; one without a meaning takes the brace and the key behind it along. -/
inductive Form.Fits : Form → (slice rest : List Char) → Prop
  | text (hslice : slice ≠ []) (hrun : '$' ∉ slice) (hrest : ∀ c, rest.head? = some c → c = '$') :
    Fits .text slice rest
  | escape : Fits .escape ['$', '$'] rest
  | named (hkey : IsKey key.toList) (hends : Ends rest) : Fits (.named key) ('$' :: key.toList) rest
  | braced (hkey : IsKey key.toList) : Fits (.braced key) ('$' :: '{' :: (key.toList ++ ['}'])) rest
  | stray (hnone : Meaningless rest) (hopens : ¬ Opens rest) : Fits .stray ['$'] rest
  | unclosed (hnone : Meaningless ('{' :: (key ++ rest))) (hkey : IsKey key) (hends : Ends rest)
    (hopen : rest.head? ≠ some '}') : Fits .stray ('$' :: '{' :: key) rest

/-- Spans that are not empty, each starting where the one before it stops. -/
def Consecutive (start : Nat) : List Span → (stop : Nat) → Prop
  | [], stop => start = stop
  | span :: spans, stop => span.start = start ∧ start < span.stop ∧ Consecutive span.stop spans stop

def Placed (template : List Char) (form : Form) (span : Span) : Prop :=
  ∃ left slice right, template = left ++ (slice ++ right) ∧
    span = ⟨byteLength left, byteLength (left ++ slice)⟩ ∧ form.Fits slice right

/-- The tokens cover the template without a gap or an overlap, and each is in place. -/
structure Tokenises (template : List Char) (ts : List (Form × Span)) : Prop where
  consecutive : Consecutive 0 (ts.map Prod.snd) (byteLength template)
  placed : ∀ e ∈ ts, Placed template e.1 e.2

-- ---------------------------------------------------------------------------
-- Dollar signs
-- ---------------------------------------------------------------------------

theorem not_isKey_of_key?_none {cs key rest : List Char} (h : key? cs = none) (hkey : IsKey key) :
    cs ≠ key ++ rest := by
  rintro rfl
  cases hkey with
  | intro hc => simp [key?, isKeyStart_iff.mpr hc] at h

theorem meaningless_of_form (h : (afterDollar cs).1.form = .stray) : Meaningless cs := by
  constructor
  · intro hescape
    obtain ⟨cs, rfl⟩ := List.head?_eq_some_iff.mp hescape
    cases h
  · intro key occurrence rest hp heq
    cases hp with
    | bare hkey hends =>
      simp only [List.cons_append, List.cons.injEq, true_and] at heq
      rw [heq, afterDollar_bare hkey hends] at h
      cases h
    | braced hkey =>
      simp only [List.cons_append, List.append_assoc, List.cons.injEq, true_and] at heq
      rw [heq] at h
      simp only [List.nil_append, afterDollar_braced hkey] at h
      cases h

theorem Meaningless.afterDollar_stray (h : Meaningless cs) (hopens : ¬ Opens cs) :
    Template.afterDollar cs = (.stray, cs) := by
  have hstray := h.afterDollar
  fun_cases Template.afterDollar cs with
  | case1 | case2 | case5 => simp_all [Template.afterDollar]
  | case3 cs key rest _ hkey =>
    obtain ⟨hk, happ, -⟩ := key?_some hkey
    exact absurd ⟨_, _, hk, by rw [happ]⟩ hopens
  | case4 | case6 => rfl

theorem afterDollar_unclosed (hkey : IsKey key) (hends : Ends rest)
    (hopen : rest.head? ≠ some '}') :
    afterDollar ('{' :: (key ++ rest)) = (.unclosed (.ofList key), rest) := by
  rw [afterDollar, key?_append hkey hends]
  cases rest with
  | nil => rfl
  | cons c rest =>
    have hc : c ≠ '}' := by simpa using hopen
    split <;> simp_all

-- ---------------------------------------------------------------------------
-- Single tokens
-- ---------------------------------------------------------------------------

theorem fits_afterDollar (cs : List Char) :
    (afterDollar cs).1.form.Fits (afterDollar cs).1.lexeme (afterDollar cs).2 := by
  have hnone := @meaningless_of_form cs
  revert hnone
  fun_cases afterDollar cs with
  | case1 cs => exact fun _ => .escape
  | case2 cs key rest hkey => exact fun _ => .braced (key?_some hkey).1
  | case3 cs key rest hopen hkey =>
    intro hnone
    obtain ⟨hk, happ, hends⟩ := key?_some hkey
    refine .unclosed (happ ▸ hnone rfl) hk hends fun hbrace => ?_
    obtain ⟨rest, rfl⟩ := List.head?_eq_some_iff.mp hbrace
    exact hopen rest rfl
  | case4 cs hkey =>
    refine fun hnone => .stray (hnone rfl) ?_
    rintro ⟨key, rest, hk, heq⟩
    exact not_isKey_of_key?_none hkey hk (List.cons.inj heq).2
  | case5 cs _ _ key rest hkey =>
    exact fun _ => .named (key?_some hkey).1 (key?_some hkey).2.2
  | case6 cs _ hbrace hkey =>
    refine fun hnone => .stray (hnone rfl) ?_
    rintro ⟨key, rest, -, heq⟩
    exact hbrace _ heq

theorem fits_next (c : Char) (cs : List Char) :
    (next c cs).1.form.Fits (next c cs).1.lexeme (next c cs).2 := by
  by_cases hc : c = '$'
  · subst hc
    rw [next_dollar]
    exact fits_afterDollar cs
  · simp only [next, if_neg hc, Token.form, Token.lexeme, String.toList_ofList]
    refine .text (List.cons_ne_nil _ _) ?_ fun d hd => ?_
    · have hrun := List.all_eq_true.mp (List.all_takeWhile (p := (· ≠ '$')) (l := cs))
      simpa [Ne.symm hc] using fun hmem => hrun '$' hmem
    · have hnot := List.head?_dropWhile_not (· ≠ '$') cs
      rw [hd] at hnot
      simpa using hnot

theorem Form.Fits.tokens {form : Form} (h : form.Fits slice rest) :
    ∃ t, t.form = form ∧ t.lexeme = slice ∧ tokens (slice ++ rest) = t :: tokens rest := by
  cases h with
  | text hslice hrun hrest =>
    obtain ⟨c, cs, rfl⟩ := List.exists_cons_of_ne_nil hslice
    obtain ⟨hc, hcs⟩ : '$' ≠ c ∧ '$' ∉ cs := by simpa using hrun
    have hall : ∀ d ∈ cs, (decide (d ≠ '$')) = true := fun d hd => by
      simpa using ne_of_mem_of_not_mem hd hcs
    have hstop : rest.takeWhile (· ≠ '$') = [] ∧ rest.dropWhile (· ≠ '$') = rest := by
      cases rest with
      | nil => exact ⟨rfl, rfl⟩
      | cons d rest =>
        obtain rfl := hrest d rfl
        exact ⟨rfl, rfl⟩
    refine ⟨.text (.ofList (c :: cs)), rfl, String.toList_ofList, ?_⟩
    rw [List.cons_append, tokens_copy (Ne.symm hc), List.takeWhile_append_of_pos hall,
      List.dropWhile_append_of_pos hall, hstop.1, hstop.2, List.append_nil]
  | escape =>
    refine ⟨.escape, rfl, rfl, ?_⟩
    rw [List.cons_append, Template.tokens, next_dollar]
    rfl
  | @named rest key hkey hends =>
    refine ⟨.named key, rfl, rfl, ?_⟩
    rw [List.cons_append, Template.tokens, next_dollar, afterDollar_bare hkey hends,
      String.ofList_toList]
  | @braced key _ hkey =>
    refine ⟨.braced key, rfl, rfl, ?_⟩
    have happ : '$' :: '{' :: (key.toList ++ ['}']) ++ rest =
      '$' :: '{' :: (key.toList ++ '}' :: rest) := by simp
    rw [happ, Template.tokens, next_dollar, afterDollar_braced hkey, String.ofList_toList]
  | stray hnone hopens =>
    refine ⟨.stray, rfl, rfl, ?_⟩
    rw [List.singleton_append, Template.tokens, next_dollar, hnone.afterDollar_stray hopens]
  | @unclosed key rest _ hkey hends hopen =>
    refine ⟨.unclosed (.ofList key), rfl, by simp [Token.lexeme], ?_⟩
    rw [List.cons_append, List.cons_append, Template.tokens, next_dollar,
      afterDollar_unclosed hkey hends hopen]

-- ---------------------------------------------------------------------------
-- Whole templates
-- ---------------------------------------------------------------------------

theorem fits_of_tokens {cs : List Char} (h : tokens cs = front ++ t :: back) :
    t.form.Fits t.lexeme (back.flatMap Token.lexeme) := by
  induction front generalizing cs with
  | nil =>
    cases cs with
    | nil => simp [tokens] at h
    | cons c cs =>
      rw [tokens] at h
      obtain ⟨rfl, rfl⟩ := List.cons.inj h
      rw [flatMap_lexeme_tokens]
      exact fits_next c cs
  | cons u front ih =>
    cases cs with
    | nil => simp [tokens] at h
    | cons c cs =>
      rw [tokens] at h
      exact ih (List.cons.inj h).2

theorem Form.Fits.slice_ne_nil {form : Form} (h : form.Fits slice rest) : slice ≠ [] := by
  cases h <;> simp_all

theorem width_pos {t : Token} {cs : List Char} (h : t ∈ tokens cs) : 0 < t.width := by
  obtain ⟨front, back, htokens⟩ := List.append_of_mem h
  have hpos := List.length_pos_iff.mpr (fits_of_tokens htokens).slice_ne_nil
  exact Nat.lt_of_lt_of_le hpos (Text.length_le_byteLength t.lexeme)

theorem consecutive_locate {ts : List Token} (h : ∀ t ∈ ts, 0 < t.width) (offset : Nat) :
    Consecutive offset ((locate offset ts).map Prod.snd)
      (offset + byteLength (ts.flatMap Token.lexeme)) := by
  induction ts generalizing offset with
  | nil => rfl
  | cons t ts ih =>
    obtain ⟨ht, hts⟩ := List.forall_mem_cons.mp h
    refine ⟨rfl, by simpa using ht, ?_⟩
    have hrest := ih hts (offset + t.width)
    rwa [Nat.add_assoc, Token.width, ← Text.byteLength_append, ← List.flatMap_cons] at hrest

theorem consecutive_lex (template : String) :
    Consecutive 0 ((lex template).map Prod.snd) (byteLength template.toList) := by
  have hwidth : ∀ t ∈ tokens template.toList, 0 < t.width := fun _ => width_pos
  have h := consecutive_locate hwidth 0
  rwa [flatMap_lexeme_tokens, Nat.zero_add] at h

theorem placed_of_mem_lex {template : String} (h : (t, span) ∈ lex template) :
    Placed template.toList t.form span := by
  obtain ⟨front, back, htokens, hstart, hstop⟩ := mem_locate h
  have htext := flatMap_lexeme_tokens template.toList
  rw [htokens, List.flatMap_append, List.flatMap_cons] at htext
  refine ⟨_, _, _, htext.symm, ?_, fits_of_tokens htokens⟩
  cases span
  simp_all [Token.width]

theorem append_inj_of_byteLength {a b c d : List Char} (h : a ++ b = c ++ d)
    (hlength : byteLength a = byteLength c) : a = c ∧ b = d := by
  have ha := before_byteLength a b
  rw [h, hlength, before_byteLength] at ha
  subst ha
  exact ⟨rfl, List.append_cancel_left h⟩

/-- Behind what is cut already, tokens that cover the rest are those of the lexer. -/
theorem locate_tokens_eq {template left rest : List Char} {ts : List (Form × Span)}
    (htext : template = left ++ rest)
    (hspans : Consecutive (byteLength left) (ts.map Prod.snd) (byteLength template))
    (hplaced : ∀ e ∈ ts, Placed template e.1 e.2) :
    (locate (byteLength left) (tokens rest)).map (Prod.map Token.form id) = ts := by
  induction ts generalizing left rest with
  | nil =>
    have hspans : byteLength left = byteLength template := hspans
    obtain ⟨-, rfl⟩ := append_inj_of_byteLength (htext.symm.trans (List.append_nil template).symm)
      hspans
    rw [tokens]
    rfl
  | cons e ts ih =>
    obtain ⟨form, span⟩ := e
    obtain ⟨hstart, -, hspans⟩ := hspans
    obtain ⟨⟨left', slice, right, htext', hspan, hfit⟩, htail⟩ := List.forall_mem_cons.mp hplaced
    obtain ⟨rfl, rfl⟩ := append_inj_of_byteLength (htext'.symm.trans htext)
      (by rw [← hstart, hspan])
    obtain ⟨t, hform, hlexeme, htokens⟩ := hfit.tokens
    have hwidth : byteLength left' + t.width = byteLength (left' ++ slice) := by
      rw [Token.width, hlexeme, Text.byteLength_append]
    rw [hspan] at hspans
    have hrest := ih (by rw [htext, List.append_assoc]) hspans htail
    rw [htokens, locate, List.map_cons, hwidth, hrest]
    exact congrArg (· :: ts) (Prod.ext hform hspan.symm)

/-- The lexer gives, for every template, the one list of tokens that cuts it up as described. -/
theorem lex_iff_tokenises (template : String) (ts : List (Form × Span)) :
    (lex template).map (Prod.map Token.form id) = ts ↔ Tokenises template.toList ts := by
  constructor
  · rintro rfl
    refine ⟨?_, fun e he => ?_⟩
    · have hspans := consecutive_lex template
      rwa [List.map_map]
    · obtain ⟨⟨t, _⟩, hlex, ⟨⟩⟩ := List.mem_map.mp he
      exact placed_of_mem_lex hlex
  · intro h
    exact locate_tokens_eq (List.nil_append _).symm h.consecutive h.placed

end SimSetup.Template
