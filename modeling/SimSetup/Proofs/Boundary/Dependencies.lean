import SimSetup.Boundary.Dependencies
import SimSetup.Proofs.Text.ByteOrder
import SimSetup.Text.Segments

/-!
# Dependencies are the relation that was recorded

`Dependencies` is a map from paths to sets, read in both directions. What it answers is settled by
the relation between derived properties and paths that was recorded in it, whatever the order in
which that was done and however often. Two paths touch if the segments of one begin with those of
the other; the comparison by characters finds just that.
-/

namespace SimSetup.Boundary

open Text (bytes bytes_lt segments segments_cons segments_ne_nil segments_separator)

-- ---------------------------------------------------------------------------
-- Paths
-- ---------------------------------------------------------------------------

/-- The path is below the first one, or the same: it has all its segments, and maybe more. -/
def Below (above path : String) : Prop :=
  segments '.' above.toList <+: segments '.' path.toList

theorem covers_iff : covers above path = true ↔ segments '.' above <+: segments '.' path := by
  fun_induction covers above path with
  | case1 path =>
    cases path with
    | nil => simp
    | cons c path =>
      by_cases hc : c = '.'
      · subst hc
        rw [segments_separator]
        simp [segments]
      · obtain ⟨piece, pieces, -, h⟩ := segments_cons hc path
        rw [h]
        simp [segments, hc]
  | case2 a above =>
    by_cases ha : a = '.'
    · subst ha
      rw [segments_separator]
      simp [segments, segments_ne_nil]
    · obtain ⟨piece, pieces, -, h⟩ := segments_cons ha above
      rw [h]
      simp [segments]
  | case3 a above c path ih =>
    rw [Bool.and_eq_true, ih, beq_iff_eq]
    by_cases ha : a = '.' <;> by_cases hc : c = '.'
    · subst ha hc
      simp [segments_separator]
    · subst ha
      obtain ⟨piece, pieces, -, h⟩ := segments_cons hc path
      rw [segments_separator, h]
      simp [Ne.symm hc]
    · subst hc
      obtain ⟨piece, pieces, -, h⟩ := segments_cons ha above
      rw [segments_separator, h]
      simp [ha]
    · obtain ⟨piece, pieces, habove, h⟩ := segments_cons ha above
      obtain ⟨piece', pieces', hpath, h'⟩ := segments_cons hc path
      rw [habove, hpath, h, h']
      simp [and_assoc]

theorem pathsOverlap_iff : pathsOverlap a b = true ↔ Below a b ∨ Below b a := by
  rw [pathsOverlap, Bool.or_eq_true, covers_iff, covers_iff, Below, Below]

namespace Dependencies

def Reads (d : Dependencies) (derived path : String) : Prop :=
  ∃ names, d.readers[path]? = some names ∧ derived ∈ names

-- ---------------------------------------------------------------------------
-- Recording
-- ---------------------------------------------------------------------------

theorem not_reads_empty (derived path : String) : ¬ empty.Reads derived path := by
  rintro ⟨names, h, -⟩
  simp [empty] at h

theorem reads_add {d : Dependencies} {derived path name place : String} :
    (d.add name place).Reads derived path ↔
      (derived, path) = (name, place) ∨ d.Reads derived path := by
  simp only [Reads, add, Std.ExtTreeMap.getElem?_insert, Std.compare_eq_iff_eq, Prod.mk.injEq]
  by_cases hpath : place = path
  · subst hpath
    cases h : d.readers[place]? <;>
      simp [Std.ExtTreeMap.getD_eq_getD_getElem?, h, eq_comm (a := derived)]
  · simp [hpath, Ne.symm hpath]

/-- No path is held that nothing reads. -/
def Tight (d : Dependencies) : Prop :=
  ∀ path, path ∈ d.readers → ∃ derived, d.Reads derived path

theorem tight_empty : empty.Tight := fun path h => by simp [empty] at h

theorem Tight.add {d : Dependencies} (h : d.Tight) (derived place : String) :
    (d.add derived place).Tight := by
  intro path hpath
  rw [Dependencies.add, Std.ExtTreeMap.mem_insert, Std.compare_eq_iff_eq] at hpath
  rcases hpath with rfl | hpath
  · exact ⟨derived, reads_add.mpr (.inl rfl)⟩
  · obtain ⟨name, hname⟩ := h path hpath
    exact ⟨name, reads_add.mpr (.inr hname)⟩

section
variable {d e : Dependencies} (h : ∀ derived path, d.Reads derived path ↔ e.Reads derived path)
include h

theorem Tight.readers_eq_some {path : String} (hd : d.Tight)
    (hnames : d.readers[path]? = some names) : e.readers[path]? = some names := by
  have hmem : path ∈ d.readers := Std.ExtTreeMap.mem_iff_isSome_getElem?.mpr (by simp [hnames])
  obtain ⟨derived, hreads⟩ := hd path hmem
  obtain ⟨names', hnames', -⟩ := (h derived path).mp hreads
  rw [hnames']
  refine congrArg some (Std.ExtTreeSet.ext_mem fun derived => ?_)
  have hiff := h derived path
  simp only [Reads, hnames, hnames', Option.some.injEq, exists_eq_left'] at hiff
  exact hiff.symm

/-- What is recorded is no more than the relation. -/
theorem Tight.ext (hd : d.Tight) (he : e.Tight) : d = e := by
  have hreaders : d.readers = e.readers := by
    refine Std.ExtTreeMap.ext_getElem? fun path => Option.ext fun names => ?_
    constructor
    · exact hd.readers_eq_some h
    · exact he.readers_eq_some fun derived path => (h derived path).symm
  cases d
  cases e
  exact congrArg mk hreaders

end

-- ---------------------------------------------------------------------------
-- Queries
-- ---------------------------------------------------------------------------

theorem mem_dependents {d : Dependencies} : derived ∈ d.dependents path ↔
    ∃ place, d.Reads derived place ∧ (Below place path ∨ Below path place) := by
  simp only [dependents, Std.ExtTreeSet.mem_toList, Std.ExtTreeSet.mem_ofList,
    List.contains_iff_mem, List.mem_flatMap, List.mem_filter, Prod.exists,
    Std.ExtTreeMap.mem_toList_iff_getElem?_eq_some, pathsOverlap_iff, Reads]
  constructor
  · rintro ⟨place, names, ⟨hnames, htouch⟩, hmem⟩
    exact ⟨place, ⟨names, hnames, hmem⟩, htouch⟩
  · rintro ⟨place, ⟨names, hnames, hmem⟩, htouch⟩
    exact ⟨place, names, ⟨hnames, htouch⟩, hmem⟩

theorem mem_dependencies {d : Dependencies} :
    path ∈ d.dependencies derived ↔ d.Reads derived path := by
  simp [dependencies, Reads, Std.ExtTreeMap.mem_toList_iff_getElem?_eq_some]

theorem bytes_lt_of_compare {a b : String} (h : compare a b = .lt) : bytes a < bytes b :=
  bytes_lt (compareOfLessAndEq_eq_lt.mp h)

theorem dependents_increasing (d : Dependencies) (path : String) :
    (d.dependents path).Pairwise (bytes · < bytes ·) :=
  Std.ExtTreeSet.ordered_toList.imp bytes_lt_of_compare

theorem dependencies_increasing (d : Dependencies) (derived : String) :
    (d.dependencies derived).Pairwise (bytes · < bytes ·) := by
  rw [dependencies, List.pairwise_map]
  exact (Std.ExtTreeMap.ordered_keys_toList.imp bytes_lt_of_compare).filter _

theorem Tight.isEmpty_iff {d : Dependencies} (h : d.Tight) :
    d.isEmpty = true ↔ ∀ derived path, ¬ d.Reads derived path := by
  rw [isEmpty, Std.ExtTreeMap.isEmpty_iff, Std.ExtTreeMap.eq_empty_iff_forall_not_mem]
  constructor
  · rintro hnone derived path ⟨names, hnames, -⟩
    exact hnone path (Std.ExtTreeMap.mem_iff_isSome_getElem?.mpr (by simp [hnames]))
  · intro hnone path hpath
    obtain ⟨derived, hreads⟩ := h path hpath
    exact hnone derived path hreads

-- ---------------------------------------------------------------------------
-- Histories
-- ---------------------------------------------------------------------------

/-- What is left of any number of declarations, each a derived property and a path that it reads. -/
def declared (calls : List (String × String)) : Dependencies :=
  calls.foldl (fun d (derived, path) => d.add derived path) empty

theorem reads_foldl {d : Dependencies} {calls : List (String × String)} :
    (calls.foldl (fun d (derived, path) => d.add derived path) d).Reads derived path ↔
      (derived, path) ∈ calls ∨ d.Reads derived path := by
  induction calls generalizing d with
  | nil => simp
  | cons call calls ih =>
    rw [List.foldl_cons, ih, reads_add, List.mem_cons, or_left_comm, or_assoc]

theorem reads_declared : (declared calls).Reads derived path ↔ (derived, path) ∈ calls := by
  rw [declared, reads_foldl]
  exact or_iff_left (not_reads_empty derived path)

theorem Tight.foldl {d : Dependencies} (h : d.Tight) (calls : List (String × String)) :
    (calls.foldl (fun d (derived, path) => d.add derived path) d).Tight := by
  induction calls generalizing d with
  | nil => exact h
  | cons call calls ih => exact ih (h.add _ _)

theorem tight_declared (calls : List (String × String)) : (declared calls).Tight :=
  tight_empty.foldl calls

theorem beq_iff_readers {d e : Dependencies} : (d == e) = true ↔ d.readers = e.readers := by
  show (d.readers == e.readers) = true ↔ _
  exact beq_iff_eq

theorem declared_eq_iff {calls calls' : List (String × String)} :
    declared calls = declared calls' ↔ ∀ call, call ∈ calls ↔ call ∈ calls' := by
  simp only [Prod.forall, ← reads_declared]
  constructor
  · intro h derived path
    rw [h]
  · intro h
    exact (tight_declared calls).ext h (tight_declared calls')

/-- Whatever was declared, in whatever order and however often, the answers are those of the set of
declarations: each query lists what it should, in the order of bytes and without repetition, and the
whole is empty or equal to another just when the sets are. -/
theorem declared_relation (calls : List (String × String)) :
    (∀ path, ((declared calls).dependents path).Pairwise (bytes · < bytes ·) ∧
      ∀ derived, derived ∈ (declared calls).dependents path ↔
        ∃ place, (derived, place) ∈ calls ∧ (Below place path ∨ Below path place)) ∧
      (∀ derived, ((declared calls).dependencies derived).Pairwise (bytes · < bytes ·) ∧
        ∀ path, path ∈ (declared calls).dependencies derived ↔ (derived, path) ∈ calls) ∧
      ((declared calls).isEmpty = true ↔ ∀ call, call ∉ calls) ∧
      ∀ calls',
        ((declared calls == declared calls') = true ↔ ∀ call, call ∈ calls ↔ call ∈ calls') ∧
        (declared calls = declared calls' ↔ ∀ call, call ∈ calls ↔ call ∈ calls') := by
  refine ⟨fun path => ⟨dependents_increasing _ path, fun derived => ?_⟩, fun derived =>
    ⟨dependencies_increasing _ derived, fun path => ?_⟩, ?_, fun calls' => ⟨?_, declared_eq_iff⟩⟩
  · simp only [mem_dependents, reads_declared]
  · rw [mem_dependencies, reads_declared]
  · simp only [(tight_declared calls).isEmpty_iff, reads_declared, Prod.forall]
  · rw [beq_iff_readers, ← Dependencies.mk.injEq]
    exact declared_eq_iff

end Dependencies

end SimSetup.Boundary
