import SimSetup.Proofs.Command.Run

/-!
# Bindings that are not there

Filling a template may ask for a value that no binding gives. More bindings then make a difference,
and otherwise they make none; and what is printed for such a fault is printed for no other.
-/

namespace SimSetup.Deployment

open Files (Disk)
open Template (Bindings Extends substitute)

-- ---------------------------------------------------------------------------
-- What is wanted
-- ---------------------------------------------------------------------------

def Wants (text : String) (bindings : Bindings) : Prop :=
  (∃ key span, substitute text bindings = .error (.missingKey key span)) ∨
    (∃ filled, substitute text bindings = .ok filled) ∧ nameKey ∉ bindings

theorem scriptOf_extends {larger smaller : Bindings} (h : Extends larger smaller)
    (hwants : ¬ Wants text smaller) : scriptOf text larger = scriptOf text smaller := by
  have hall : ∀ key span, substitute text smaller ≠ .error (.missingKey key span) :=
    fun key span hs => hwants (.inl ⟨key, span, hs⟩)
  rw [scriptOf, scriptOf, h.substitute hall]
  cases hs : substitute text smaller with
  | error cause => rfl
  | ok filled =>
    have hname : nameKey ∈ smaller := Classical.byContradiction fun hn => hwants (.inr ⟨⟨_, hs⟩, hn⟩)
    obtain ⟨name, hlookup⟩ :=
      Option.isSome_iff_exists.mp (Std.ExtTreeMap.mem_iff_isSome_getElem?.mp hname)
    simp only [hlookup, h _ _ hlookup]

theorem unboundIn_extends {larger smaller : Bindings} (h : Extends larger smaller)
    (hnone : unboundIn text smaller = []) : unboundIn text larger = [] := by
  rw [unboundIn_eq_nil_iff] at hnone ⊢
  exact fun e he key hkey => h.mem (hnone e he key hkey)

def Fault.isLack : Fault → Bool
  | unfillable (.missingKey ..) | unnamed => true
  | _ => false

theorem scriptOf_of_wants {bindings : Bindings} (h : Wants text bindings) :
    ∃ fault, scriptOf text bindings = .error fault ∧ fault.isLack = true := by
  obtain ⟨key, span, hs⟩ | ⟨⟨filled, hs⟩, hname⟩ := h
  · exact ⟨_, scriptOf_of_error hs, rfl⟩
  · exact ⟨_, scriptOf_of_unnamed hs hname, rfl⟩

theorem isLack_of_bound {bindings : Bindings} (hnone : unboundIn text bindings = [])
    (hname : nameKey ∈ bindings) (h : scriptOf text bindings = .error fault) :
    fault.isLack = false := by
  cases hs : substitute text bindings with
  | ok filled =>
    obtain ⟨script, hok⟩ := scriptOf_ok_iff.mpr ⟨⟨filled, hs⟩, hname⟩
    cases hok.symm.trans h
  | error cause =>
    rw [scriptOf_of_error hs] at h
    cases h
    cases cause with
    | missingKey key span =>
      have hhead := head?_unboundIn hs
      rw [hnone] at hhead
      cases hhead
    | invalidPlaceholder => rfl

theorem isLack_of_deliver {d : Deployment} {script : Script} {disk disk' : Disk}
    (h : (d.deliver script).run disk = (.error fault, disk')) :
    fault.inTemplate? = none ∧ fault.isLack = false := by
  rw [deliver] at h
  obtain h | ⟨_, _, -, h⟩ := error_of_bind h
  · obtain ⟨_, -, rfl⟩ := error_of_adapt h
    exact ⟨rfl, rfl⟩
  obtain h | ⟨_, _, -, h⟩ := error_of_bind h
  · obtain ⟨_, -, rfl⟩ := error_of_adapt h
    exact ⟨rfl, rfl⟩
  · cases h

-- ---------------------------------------------------------------------------
-- Reports
-- ---------------------------------------------------------------------------

theorem report_opening (cause : Template.Fault) (template file : String) : ∃ rest,
    cause.report template file = Report.paint .fault "Error:" ++ " " ++ cause.message ++ rest := by
  simp only [Template.Fault.report, List.map_cons, String.join_cons, String.append_assoc]
  exact ⟨_, rfl⟩

def Fault.opening : Fault → String
  | notFound _ => "Error: " ++ "template not found: "
  | unfillable (.missingKey ..) =>
    Report.paint .fault "Error:" ++ " " ++ "no value for placeholder '$"
  | unfillable (.invalidPlaceholder ..) =>
    Report.paint .fault "Error:" ++ " " ++ "invalid placeholder at line "
  | unnamed => "Error: " ++ "no 'name' binding"
  | inaccessible .. => "Error: " ++ "I/O error on "

/-- A fault can be told: one of the template's text needs the text. -/
def Told (d : Deployment) (template : String) (disk : Disk) (fault : Fault) : Prop :=
  fault.inTemplate? = none ∨ ∃ text, d.source template disk = .ok text

theorem failure_opening {d : Deployment} (h : d.Told template disk fault) :
    ∃ rest, (d.failure template disk fault).stderr = fault.opening ++ rest := by
  cases fault with
  | unnamed =>
    rw [failure_of_plain rfl]
    exact ⟨" to derive the output file name from\n", by decide +kernel⟩
  | notFound path =>
    rw [failure_of_plain rfl]
    refine ⟨path ++ "\n", ?_⟩
    change "Error: " ++ ("template not found: " ++ path) ++ "\n" = _
    simp only [Fault.opening, String.append_assoc, -String.reduceAppend]
  | inaccessible path cause =>
    rw [failure_of_plain rfl]
    refine ⟨path ++ ": " ++ cause.message ++ "\n", ?_⟩
    change "Error: " ++ ("I/O error on " ++ path ++ ": " ++ cause.message) ++ "\n" = _
    simp only [Fault.opening, String.append_assoc, -String.reduceAppend]
  | unfillable cause =>
    obtain h | ⟨text, h⟩ := h
    · cases h
    rw [failure_of_text h]
    obtain ⟨rest, hrest⟩ := report_opening cause text (d.templatePath template)
    rw [hrest]
    cases cause with
    | missingKey key span =>
      refine ⟨key ++ "'" ++ rest ++ "\n", ?_⟩
      change Report.paint .fault "Error:" ++ " " ++ ("no value for placeholder '$" ++ key ++ "'") ++
        rest ++ "\n" = _
      simp only [Fault.opening, String.append_assoc, -String.reduceAppend]
    | invalidPlaceholder span position =>
      refine ⟨toString position.line ++ ", column " ++ toString position.column ++ rest ++ "\n", ?_⟩
      change Report.paint .fault "Error:" ++ " " ++ ("invalid placeholder at line " ++
        toString position.line ++ ", column " ++ toString position.column) ++ rest ++ "\n" = _
      simp only [Fault.opening, String.append_assoc, -String.reduceAppend]

theorem opening_apart {lack other : Fault} (hlack : lack.isLack = true)
    (hother : other.isLack = false) :
    ¬ lack.opening.toList <+: other.opening.toList ∧
      ¬ other.opening.toList <+: lack.opening.toList := by
  cases lack with
  | notFound | inaccessible => cases hlack
  | unnamed =>
    cases other with
    | unnamed => cases hother
    | notFound | inaccessible => simp only [Fault.opening]; decide +kernel
    | unfillable cause =>
      cases cause with
      | missingKey => cases hother
      | invalidPlaceholder => simp only [Fault.opening]; decide +kernel
  | unfillable cause =>
    cases cause with
    | invalidPlaceholder => cases hlack
    | missingKey =>
      cases other with
      | unnamed => cases hother
      | notFound | inaccessible => simp only [Fault.opening]; decide +kernel
      | unfillable cause =>
        cases cause with
        | missingKey => cases hother
        | invalidPlaceholder => simp only [Fault.opening]; decide +kernel

/-- A binding that is not there is reported as no other fault is. -/
theorem failure_ne {d d' : Deployment} {disk disk' : Disk} {lack other : Fault}
    (h : d.Told template disk lack) (h' : d'.Told template disk' other)
    (hlack : lack.isLack = true) (hother : other.isLack = false) :
    d.failure template disk lack ≠ d'.failure template disk' other := by
  intro heq
  obtain ⟨rest, hrest⟩ := failure_opening h
  obtain ⟨rest', hrest'⟩ := failure_opening h'
  rw [heq, hrest', ← String.toList_inj, String.toList_append, String.toList_append] at hrest
  obtain ⟨hne, hne'⟩ := opening_apart hlack hother
  rcases List.append_eq_append_iff.mp hrest with ⟨a, ha, -⟩ | ⟨a, ha, -⟩
  · exact hne' ⟨a, ha.symm⟩
  · exact hne ⟨a, ha.symm⟩

end SimSetup.Deployment
