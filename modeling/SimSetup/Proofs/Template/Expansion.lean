import SimSetup.Template.Substitution

/-!
# Where filling stops

Filling stops at the first token that has no meaning or whose key has no value. Listing the
placeholders walks the same tokens on its own: it skips what has no meaning and names each key once.
The first key it names that has no value is the one that filling would stop at.
-/

namespace SimSetup.Template

open Text (Span Position)

/-- A dollar sign that opens no placeholder has no meaning; every other token has one. -/
def Token.isMeaningful : Token → Bool
  | stray | unclosed _ => false
  | _ => true

def Token.Bound (bindings : Bindings) (t : Token) : Prop :=
  ∀ key, t.key? = some key → key ∈ bindings

def Token.Filled (bindings : Bindings) (t : Token) : Prop :=
  t.isMeaningful = true ∧ t.Bound bindings

-- ---------------------------------------------------------------------------
-- The first failure in a list
-- ---------------------------------------------------------------------------

section
variable {f g : α → Except ε β} {l : List α}

theorem mapM_cons_ok {a : α} {b : β} (h : f a = .ok b) (l : List α) :
    (a :: l).mapM f = (l.mapM f).map (b :: ·) := by
  rw [List.mapM_cons, h]
  cases l.mapM f <;> rfl

theorem mapM_cons_error {a : α} {e : ε} (h : f a = .error e) (l : List α) :
    (a :: l).mapM f = .error e := by
  rw [List.mapM_cons, h]
  rfl

theorem mapM_ok_iff : (∃ bs, l.mapM f = .ok bs) ↔ ∀ a ∈ l, ∃ b, f a = .ok b := by
  induction l with
  | nil => exact ⟨fun _ => by simp, fun _ => ⟨[], rfl⟩⟩
  | cons a l ih =>
    rw [List.forall_mem_cons, ← ih]
    cases ha : f a with
    | error e => simp [mapM_cons_error ha]
    | ok b =>
      rw [mapM_cons_ok ha]
      cases l.mapM f <;> simp [Except.map]

theorem mapM_error_iff : l.mapM f = .error e ↔ ∃ before a after, l = before ++ a :: after ∧
    (∀ x ∈ before, ∃ b, f x = .ok b) ∧ f a = .error e := by
  induction l with
  | nil => exact ⟨fun h => (nomatch h), fun ⟨_, _, _, h, _⟩ => by simp at h⟩
  | cons a l ih =>
    constructor
    · intro h
      cases ha : f a with
      | error e' =>
        rw [mapM_cons_error ha] at h
        cases h
        exact ⟨[], a, l, rfl, by simp, ha⟩
      | ok b =>
        have hl : l.mapM f = .error e := by
          rw [mapM_cons_ok ha] at h
          revert h
          cases l.mapM f <;> simp [Except.map]
        obtain ⟨before, x, after, rfl, hbefore, hx⟩ := ih.mp hl
        exact ⟨a :: before, x, after, rfl, List.forall_mem_cons.mpr ⟨⟨b, ha⟩, hbefore⟩, hx⟩
    · rintro ⟨before, x, after, heq, hbefore, hx⟩
      cases before with
      | nil =>
        cases heq
        exact mapM_cons_error hx l
      | cons y before =>
        cases heq
        obtain ⟨⟨b, hb⟩, hbefore⟩ := List.forall_mem_cons.mp hbefore
        rw [mapM_cons_ok hb, ih.mpr ⟨before, x, after, rfl, hbefore, hx⟩]
        rfl

theorem mapM_congr (h : ∀ a ∈ l, f a = g a) : l.mapM f = l.mapM g := by
  induction l with
  | nil => rfl
  | cons a l ih =>
    obtain ⟨ha, hl⟩ := List.forall_mem_cons.mp h
    rw [List.mapM_cons, List.mapM_cons, ha, ih hl]

end

-- ---------------------------------------------------------------------------
-- Filling
-- ---------------------------------------------------------------------------

section
variable {template : String} {bindings : Bindings} {t : Token} {key : String} {span : Span}
  {fault : Fault}

theorem expand_of_key (h : t.key? = some key) (span : Span) :
    expand template bindings (t, span) = match bindings[key]? with
      | some value => .ok value
      | none => .error (.missingKey key span) := by
  cases t <;> cases h <;> rfl

/-- The value of its key is all that a token needs of the bindings. -/
theorem expand_congr {bindings' : Bindings} {t : Token}
    (h : ∀ key, t.key? = some key → bindings[key]? = bindings'[key]?) (span : Span) :
    expand template bindings (t, span) = expand template bindings' (t, span) := by
  cases hkey : t.key? with
  | none =>
    cases t with
    | text | escape | stray | unclosed => rfl
    | named | braced => cases hkey
  | some key => rw [expand_of_key hkey, expand_of_key hkey, h key hkey]

theorem expand_of_meaningless (h : t.isMeaningful = false) (span : Span) :
    expand template bindings (t, span) =
      .error (.invalidPlaceholder span (Text.position template.toList span.start)) := by
  cases t <;> cases h <;> rfl

theorem expand_of_literal (h : t.isMeaningful = true) (hkey : t.key? = none) (span : Span) :
    ∃ s, expand template bindings (t, span) = .ok s := by
  cases t with
  | text | escape => exact ⟨_, rfl⟩
  | named | braced => cases hkey
  | stray | unclosed => cases h

/-- A token is replaced, or has no meaning, or asks for a value that is not there. -/
theorem expand_cases (template : String) (bindings : Bindings) (t : Token) (span : Span) :
    (t.Filled bindings ∧ ∃ s, expand template bindings (t, span) = .ok s) ∨
      (t.isMeaningful = false ∧ expand template bindings (t, span) =
        .error (.invalidPlaceholder span (Text.position template.toList span.start))) ∨
      ∃ key, t.key? = some key ∧ key ∉ bindings ∧
        expand template bindings (t, span) = .error (.missingKey key span) := by
  cases hm : t.isMeaningful with
  | false => exact .inr (.inl ⟨rfl, expand_of_meaningless hm span⟩)
  | true =>
    cases hkey : t.key? with
    | none => exact .inl ⟨⟨hm, by simp [Token.Bound, hkey]⟩, expand_of_literal hm hkey span⟩
    | some key =>
      have hexpand : expand template bindings (t, span) = _ := expand_of_key hkey span
      cases hv : bindings[key]? with
      | none =>
        rw [hv] at hexpand
        exact .inr (.inr ⟨key, rfl, (getElem?_eq_none_iff _ _).mp hv, hexpand⟩)
      | some value =>
        rw [hv] at hexpand
        have hmem : key ∈ bindings :=
          Std.ExtTreeMap.mem_iff_isSome_getElem?.mpr (by rw [hv]; rfl)
        refine .inl ⟨⟨hm, fun k hk => ?_⟩, value, hexpand⟩
        rw [hkey] at hk
        cases hk
        exact hmem

theorem not_filled_of_key (h : t.key? = some key) (hnot : key ∉ bindings) : ¬ t.Filled bindings :=
  fun hfilled => hnot (hfilled.2 key h)

theorem expand_ok_iff {e : Token × Span} :
    (∃ s, expand template bindings e = .ok s) ↔ e.1.Filled bindings := by
  rcases expand_cases template bindings e.1 e.2 with ⟨hf, h⟩ | ⟨hm, h⟩ | ⟨key, hkey, hnot, h⟩
  · exact ⟨fun _ => hf, fun _ => h⟩
  · rw [h]
    exact ⟨fun ⟨_, h⟩ => (nomatch h), fun hf => by rw [hf.1] at hm; cases hm⟩
  · rw [h]
    exact ⟨fun ⟨_, h⟩ => (nomatch h), fun hf => absurd hf (not_filled_of_key hkey hnot)⟩

theorem expand_missing {e : Token × Span}
    (h : expand template bindings e = .error (.missingKey key span)) :
    e.1.key? = some key ∧ key ∉ bindings := by
  rcases expand_cases template bindings e.1 e.2 with ⟨-, s, hok⟩ | ⟨-, hinvalid⟩ | ⟨k, hkey, hnot, hk⟩
  · cases hok.symm.trans h
  · cases hinvalid.symm.trans h
  · cases hk.symm.trans h
    exact ⟨hkey, hnot⟩

theorem expand_invalid {e : Token × Span} {position : Position}
    (h : expand template bindings e = .error (.invalidPlaceholder span position)) :
    e.1.isMeaningful = false ∧ e.2 = span := by
  rcases expand_cases template bindings e.1 e.2 with ⟨-, s, hok⟩ | ⟨hm, hinvalid⟩ | ⟨k, -, -, hk⟩
  · cases hok.symm.trans h
  · cases hinvalid.symm.trans h
    exact ⟨hm, rfl⟩
  · cases hk.symm.trans h

theorem substitute_ok_iff : (∃ text, substitute template bindings = .ok text) ↔
    ∀ e ∈ lex template, e.1.Filled bindings := by
  simp only [← @expand_ok_iff template]
  rw [← mapM_ok_iff, substitute]
  cases (lex template).mapM (expand template bindings) <;> simp [Functor.map, Except.map]

theorem substitute_error_iff : substitute template bindings = .error fault ↔
    ∃ before e after, lex template = before ++ e :: after ∧
      (∀ x ∈ before, x.1.Filled bindings) ∧ expand template bindings e = .error fault := by
  simp only [← @expand_ok_iff template]
  rw [← mapM_error_iff, substitute]
  cases (lex template).mapM (expand template bindings) <;> simp [Functor.map, Except.map]

end

-- ---------------------------------------------------------------------------
-- More bindings
-- ---------------------------------------------------------------------------

/-- Each binding is in `larger` as it is in `smaller`. -/
def Extends (larger smaller : Bindings) : Prop :=
  ∀ key value : String, smaller[key]? = some value → larger[key]? = some value

section
variable {larger smaller : Bindings} (h : Extends larger smaller)
include h

theorem Extends.mem (hkey : key ∈ smaller) : key ∈ larger := by
  rw [Std.ExtTreeMap.mem_iff_isSome_getElem?] at hkey ⊢
  obtain ⟨value, hvalue⟩ := Option.isSome_iff_exists.mp hkey
  rw [h key value hvalue]
  rfl

theorem Extends.filled (hfilled : Token.Filled smaller t) : t.Filled larger :=
  ⟨hfilled.1, fun key hkey => h.mem (hfilled.2 key hkey)⟩

theorem Extends.expand {t : Token} (hbound : t.Bound smaller) (template : String) (span : Span) :
    expand template larger (t, span) = expand template smaller (t, span) := by
  refine expand_congr (fun key hkey => ?_) span
  obtain ⟨value, hvalue⟩ := Option.isSome_iff_exists.mp
    (Std.ExtTreeMap.mem_iff_isSome_getElem?.mp (hbound key hkey))
  rw [hvalue, h key value hvalue]

/-- Filling that misses no value comes to the same with more bindings. -/
theorem Extends.substitute
    (hall : ∀ key span, substitute template smaller ≠ .error (.missingKey key span)) :
    substitute template larger = substitute template smaller := by
  cases hs : Template.substitute template smaller with
  | ok text =>
    have hfilled := substitute_ok_iff.mp ⟨text, hs⟩
    rw [← hs, Template.substitute, Template.substitute,
      mapM_congr fun e he => h.expand (hfilled e he).2 template e.2]
  | error fault =>
    obtain ⟨before, e, after, hlex, hbefore, hexpand⟩ := substitute_error_iff.mp hs
    cases fault with
    | missingKey key span => exact absurd hs (hall key span)
    | invalidPlaceholder span position =>
      have hkey : e.1.key? = none := by
        have hmeaning := (expand_invalid hexpand).1
        revert hmeaning
        cases e.1 <;> simp [Token.isMeaningful, Token.key?]
      have hbound : e.1.Bound smaller := by simp [Token.Bound, hkey]
      exact substitute_error_iff.mpr ⟨before, e, after, hlex,
        fun x hx => h.filled (hbefore x hx), (h.expand hbound template e.2).trans hexpand⟩

end

-- ---------------------------------------------------------------------------
-- Listing
-- ---------------------------------------------------------------------------

theorem find?_eraseDups [BEq α] [LawfulBEq α] (p : α → Bool) :
    (l : List α) → l.eraseDups.find? p = l.find? p
  | [] => rfl
  | a :: l => by
    rw [List.eraseDups_cons, List.find?_cons, List.find?_cons, find?_eraseDups p, List.find?_filter]
    cases ha : p a with
    | true => rfl
    | false =>
      -- what is equal to the head is not what is looked for
      have hkeep : (fun b => !b == a && p b) = p := by
        funext b
        by_cases hb : b = a <;> simp [hb, ha]
      simp [hkeep]
termination_by l => l.length
decreasing_by exact Nat.lt_succ_of_le (List.length_filter_le _ _)

theorem map_fst_locate (offset : Nat) (ts : List Token) :
    (locate offset ts).map Prod.fst = ts := by
  induction ts generalizing offset with
  | nil => rfl
  | cons t ts ih => rw [locate, List.map_cons, ih]

theorem placeholders_eq (template : String) :
    placeholders template = ((lex template).filterMap fun e => e.1.key?).eraseDups := by
  have htokens : tokens template.toList = (lex template).map Prod.fst := (map_fst_locate 0 _).symm
  rw [placeholders, htokens, List.filterMap_map]
  rfl

theorem mem_placeholders {template key : String} :
    key ∈ placeholders template ↔ ∃ e ∈ lex template, e.1.key? = some key := by
  rw [placeholders_eq, List.mem_eraseDups, List.mem_filterMap]

theorem find?_placeholders {template key : String} {p : String → Bool}
    (hlex : lex template = before ++ e :: after)
    (hbefore : ∀ x ∈ before, ∀ k, x.1.key? = some k → p k = false)
    (hkey : e.1.key? = some key) (hp : p key = true) :
    (placeholders template).find? p = some key := by
  have hnone : (before.filterMap fun e => e.1.key?).find? p = none := by
    rw [List.find?_eq_none]
    intro k hk
    obtain ⟨x, hx, hxk⟩ := List.mem_filterMap.mp hk
    simp [hbefore x hx k hxk]
  rw [placeholders_eq, find?_eraseDups, hlex, List.filterMap_append, List.find?_append, hnone,
    List.filterMap_cons, hkey, Option.none_or]
  exact List.find?_cons_of_pos hp

end SimSetup.Template
