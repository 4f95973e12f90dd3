import SimSetup.Text.Position

/-!
# Tokens of a template

A dollar sign opens a placeholder, `$key` or `${key}`, or is doubled to stand for itself; all other
text is literal. `lex` cuts a template into tokens from left to right, each as long as its form
allows, and loses nothing: the lexemes concatenate to the template.
-/

namespace SimSetup.Template

open Text (Span byteLength)

inductive Token
  | text (run : String)
  /-- A doubled dollar sign. -/
  | escape
  | named (key : String)
  | braced (key : String)
  /-- A dollar sign that opens no placeholder. -/
  | stray
  /-- A brace and a key without the closing brace. -/
  | unclosed (key : String)
  deriving DecidableEq, Repr

namespace Token

def lexeme : Token → List Char
  | text run => run.toList
  | escape => ['$', '$']
  | named key => '$' :: key.toList
  | braced key => '$' :: '{' :: key.toList ++ ['}']
  | stray => ['$']
  | unclosed key => '$' :: '{' :: key.toList

def width (t : Token) : Nat := byteLength t.lexeme

def key? : Token → Option String
  | named key | braced key => some key
  | _ => none

end Token

def isKeyStart (c : Char) : Bool := c.isAlpha || c = '_'

def isKeyPart (c : Char) : Bool := c.isAlphanum || c = '_'

/-- The longest key at the head of the text, and what follows it. -/
def key? : List Char → Option (String × List Char)
  | [] => none
  | c :: cs =>
    if isKeyStart c then some (.ofList (c :: cs.takeWhile isKeyPart), cs.dropWhile isKeyPart)
    else none

theorem toList_append_of_key? {cs rest : List Char} {key : String}
    (h : key? cs = some (key, rest)) : key.toList ++ rest = cs := by
  cases cs with
  | nil => simp [key?] at h
  | cons c cs =>
    simp only [key?, Option.ite_none_right_eq_some, Option.some.injEq, Prod.mk.injEq] at h
    obtain ⟨-, rfl, rfl⟩ := h
    simp

/-- The token that a dollar sign opens, given the text after the sign, and the text after the
token. -/
def afterDollar : List Char → Token × List Char
  | '$' :: cs => (.escape, cs)
  | '{' :: cs =>
    match key? cs with
    | some (key, '}' :: rest) => (.braced key, rest)
    | some (key, rest) => (.unclosed key, rest)
    | none => (.stray, '{' :: cs)
  | cs =>
    match key? cs with
    | some (key, rest) => (.named key, rest)
    | none => (.stray, cs)

theorem lexeme_afterDollar (cs : List Char) :
    (afterDollar cs).1.lexeme ++ (afterDollar cs).2 = '$' :: cs := by
  fun_cases afterDollar cs with
  | case1 => rfl
  | case2 cs key rest h => simp [Token.lexeme, ← toList_append_of_key? h]
  | case3 cs key rest _ h => simp [Token.lexeme, ← toList_append_of_key? h]
  | case4 => rfl
  | case5 cs _ _ key rest h => simp [Token.lexeme, ← toList_append_of_key? h]
  | case6 => rfl

def next (c : Char) (cs : List Char) : Token × List Char :=
  if c = '$' then afterDollar cs
  else (.text (.ofList (c :: cs.takeWhile (· ≠ '$'))), cs.dropWhile (· ≠ '$'))

theorem lexeme_next (c : Char) (cs : List Char) :
    (next c cs).1.lexeme ++ (next c cs).2 = c :: cs := by
  unfold next
  split
  · next h => rw [h, lexeme_afterDollar]
  · simp [Token.lexeme, List.takeWhile_append_dropWhile]

theorem lexeme_next_ne_nil (c : Char) (cs : List Char) : (next c cs).1.lexeme ≠ [] := by
  unfold next
  split
  · cases h : (afterDollar cs).1 with
    | text run =>
      revert h
      fun_cases afterDollar cs <;> simp
    | _ => simp [Token.lexeme]
  · simp [Token.lexeme]

theorem length_next_lt (c : Char) (cs : List Char) :
    (next c cs).2.length < (c :: cs).length := by
  have h := congrArg List.length (lexeme_next c cs)
  have := List.length_pos_iff.2 (lexeme_next_ne_nil c cs)
  rw [List.length_append] at h
  omega

def tokens : List Char → List Token
  | [] => []
  | c :: cs => (next c cs).1 :: tokens (next c cs).2
termination_by cs => cs.length
decreasing_by exact length_next_lt c cs

theorem flatMap_lexeme_tokens (cs : List Char) : (tokens cs).flatMap Token.lexeme = cs := by
  fun_induction tokens cs with
  | case1 => rfl
  | case2 c cs ih => rw [List.flatMap_cons, ih, lexeme_next]

/-- Gives each token the bytes it covers; the first one starts at `offset`. -/
def locate (offset : Nat) : List Token → List (Token × Span)
  | [] => []
  | t :: ts => (t, ⟨offset, offset + t.width⟩) :: locate (offset + t.width) ts

def lex (template : String) : List (Token × Span) :=
  locate 0 (tokens template.toList)

/-- The keys of a template in order of first appearance. -/
def placeholders (template : String) : List String :=
  ((tokens template.toList).filterMap Token.key?).eraseDups

end SimSetup.Template
