import SimSetup.Files.Disk
import SimSetup.Proofs.Actions

/-!
# What becomes of a disk

A path leads on a changed disk where it led before, as long as whatever was there is still there.
Making directories keeps everything and adds the directories only; writing a file changes what is at
the place that its path leads to afterwards, and nothing else.
-/

namespace SimSetup.Files.Disk

variable {d d' d'' : Disk}

-- ---------------------------------------------------------------------------
-- Entries
-- ---------------------------------------------------------------------------

def content? (d : Disk) (place : Place) : Option ByteArray :=
  match d.entry? place with
  | some (.file content) => some content
  | _ => none

theorem entry?_put_self {place : Place} (h : place ≠ []) (d : Disk) (entry : Entry) :
    Disk.entry? (d.put place entry) place = some entry := by
  unfold entry? put
  rw [if_neg h, Std.ExtTreeMap.getElem?_insert_self]

theorem entry?_put_of_ne {place other : Place} (h : other ≠ place) (d : Disk) (entry : Entry) :
    Disk.entry? (d.put place entry) other = d.entry? other := by
  unfold entry? put
  split
  · rfl
  · rw [Std.ExtTreeMap.getElem?_insert, if_neg]
    rw [Std.LawfulEqCmp.compare_eq_iff_eq]
    exact h.symm

theorem hasDirectory_iff {place : Place} :
    d.hasDirectory place = true ↔ d.entry? place = some .directory := by
  unfold hasDirectory
  cases d.entry? place with
  | none => simp
  | some entry => cases entry <;> simp

theorem content?_eq_some : d.content? place = some content ↔
    d.entry? place = some (.file content) := by
  unfold content?
  cases d.entry? place with
  | none => simp
  | some entry => cases entry <;> simp

theorem content?_congr (h : Disk.entry? d' place = d.entry? place) :
    d'.content? place = d.content? place := by
  rw [content?, content?, h]

theorem checkDirectory_eq_ok : d.checkDirectory place = .ok () ↔ d.hasDirectory place = true := by
  unfold checkDirectory
  cases d.hasDirectory place <;> simp

-- ---------------------------------------------------------------------------
-- Ways through the directories
-- ---------------------------------------------------------------------------

/-- `Walks d place steps target`: every step starts in a directory and leads to something. -/
inductive Walks (d : Disk) : Place → List Step → Place → Prop
  | here : Walks d place [] place
  | stay (hd : d.hasDirectory place = true) (h : Walks d place rest target) :
    Walks d place (.stay :: rest) target
  | up (hd : d.hasDirectory place = true) (h : Walks d place.dropLast rest target) :
    Walks d place (.up :: rest) target
  | down (hd : d.hasDirectory place = true) (hname : checkName name = .ok ())
    (hentry : (d.entry? (place ++ [name])).isSome) (h : Walks d (place ++ [name]) rest target) :
    Walks d place (.down name :: rest) target

theorem walk_eq_ok {place target : Place} {steps : List Step} :
    d.walk place steps = .ok target ↔ Walks d place steps target := by
  constructor
  · intro h
    induction steps generalizing place with
    | nil =>
      cases h
      exact .here
    | cons step rest ih =>
      obtain ⟨_, hd, h⟩ := bind_eq_ok.mp h
      have hd := checkDirectory_eq_ok.mp hd
      cases step with
      | stay => exact .stay hd (ih h)
      | up => exact .up hd (ih h)
      | down name =>
        obtain ⟨_, hname, h⟩ := bind_eq_ok.mp h
        cases hentry : d.entry? (place ++ [name]) with
        | none =>
          rw [hentry] at h
          cases h
        | some entry =>
          rw [hentry] at h
          exact .down hd hname (by rw [hentry]; rfl) (ih h)
  · intro h
    induction h with
    | here => rfl
    | stay hd _ ih | up hd _ ih => exact bind_eq_ok.mpr ⟨_, checkDirectory_eq_ok.mpr hd, ih⟩
    | down hd hname hentry _ ih =>
      obtain ⟨entry, hentry⟩ := Option.isSome_iff_exists.mp hentry
      refine bind_eq_ok.mpr ⟨_, checkDirectory_eq_ok.mpr hd, bind_eq_ok.mpr ⟨_, hname, ?_⟩⟩
      rw [hentry]
      exact ih

theorem Walks.append (h : Walks d place before parent)
    (h' : Walks d parent after target) : Walks d place (before ++ after) target := by
  induction h with
  | here => exact h'
  | stay hd _ ih => exact .stay hd (ih h')
  | up hd _ ih => exact .up hd (ih h')
  | down hd hname hentry _ ih => exact .down hd hname hentry (ih h')

/-- Where a path leads; the empty one stays in the working directory. -/
def Leads (d : Disk) (path : String) (place : Place) : Prop :=
  Walks d (d.start path) (steps path) place

theorem find_eq (d : Disk) (path : String) : d.find path =
    (checkPath path >>= fun _ => d.walk (d.start path) (steps path) >>= fun place =>
      (if endsInSlash path then d.checkDirectory place else .ok ()) >>= fun _ => .ok place) := by
  unfold find
  cases endsInSlash path <;> rfl

theorem find_eq_ok : d.find path = .ok place ↔ checkPath path = .ok () ∧ d.Leads path place ∧
    (endsInSlash path = true → d.hasDirectory place = true) := by
  simp only [find_eq, bind_eq_ok, walk_eq_ok]
  constructor
  · rintro ⟨_, hpath, _, hwalks, _, hd, ⟨⟩⟩
    refine ⟨hpath, hwalks, fun hslash => ?_⟩
    rw [hslash] at hd
    exact checkDirectory_eq_ok.mp hd
  · rintro ⟨hpath, hwalks, hd⟩
    refine ⟨(), hpath, place, hwalks, (), ?_, rfl⟩
    split
    · next hslash => exact checkDirectory_eq_ok.mpr (hd hslash)
    · rfl

theorem read_eq_ok (h : d.find path = .ok place) : d.read path = .ok content ↔
    d.content? place = some content := by
  rw [content?_eq_some, read, h]
  simp only [bind, Except.bind]
  cases d.entry? place with
  | none => simp
  | some entry => cases entry <;> simp

theorem isDirectory_iff : d.isDirectory path = true ↔
    ∃ place, d.find path = .ok place ∧ d.hasDirectory place = true := by
  unfold isDirectory
  cases d.find path <;> simp

-- ---------------------------------------------------------------------------
-- What is kept
-- ---------------------------------------------------------------------------

/-- Whatever is on `d` is on `d'`, and its directories are directories there. -/
structure Kept (d d' : Disk) : Prop where
  workingDirectory : d'.workingDirectory = d.workingDirectory
  entries : ∀ place, (d.entry? place).isSome → (Disk.entry? d' place).isSome
  directories : ∀ place, d.hasDirectory place = true → d'.hasDirectory place = true

theorem Kept.refl (d : Disk) : Kept d d := ⟨rfl, fun _ => id, fun _ => id⟩

theorem Kept.trans (h : Kept d d') (h' : Kept d' d'') : Kept d d'' where
  workingDirectory := h'.workingDirectory.trans h.workingDirectory
  entries place hplace := h'.entries place (h.entries place hplace)
  directories place hplace := h'.directories place (h.directories place hplace)

theorem Kept.start (h : Kept d d') (path : String) : d'.start path = d.start path := by
  rw [Disk.start, Disk.start, h.workingDirectory]

theorem Kept.walks {steps : List Step} (h : Kept d d') (hw : Walks d place steps target) :
    Walks d' place steps target := by
  induction hw with
  | here => exact .here
  | stay hd _ ih => exact .stay (h.directories _ hd) ih
  | up hd _ ih => exact .up (h.directories _ hd) ih
  | down hd hname hentry _ ih =>
    exact .down (h.directories _ hd) hname (h.entries _ hentry) ih

theorem Kept.leads (h : Kept d d') (hl : d.Leads path place) : d'.Leads path place := by
  unfold Leads
  rw [h.start]
  exact h.walks hl

theorem Kept.put {place : Place} (hplace : place ≠ []) {entry : Entry}
    (h : d.hasDirectory place = true → entry = .directory) : Kept d (d.put place entry) where
  workingDirectory := rfl
  entries other hother := by
    by_cases heq : other = place
    · rw [heq, entry?_put_self hplace]
      rfl
    · rwa [entry?_put_of_ne heq]
  directories other hother := by
    by_cases heq : other = place
    · rw [hasDirectory_iff, heq, entry?_put_self hplace, h (heq ▸ hother)]
    · rwa [hasDirectory, entry?_put_of_ne heq]

-- ---------------------------------------------------------------------------
-- What is put where a path leads
-- ---------------------------------------------------------------------------

/-- The last step of the path goes down by `name` from the directory `parent`. -/
structure Aims (d : Disk) (path : String) (parent : Place) (name : String) : Prop where
  possible : checkPath path = .ok ()
  way : ∃ before, steps path = before ++ [.down name] ∧ Walks d (d.start path) before parent
  directory : d.hasDirectory parent = true
  short : checkName name = .ok ()

theorem aims_of_target? (h : d.target? path = .ok (some place))
    (hshort : checkName (place.getLast?.getD "") = .ok ()) :
    ∃ parent name, place = parent ++ [name] ∧ d.Aims path parent name := by
  unfold target? at h
  simp only [bind_eq_ok] at h
  obtain ⟨_, hpath, parent, hwalk, _, hd, h⟩ := h
  split at h
  · next name hlast =>
    cases h
    obtain ⟨before, hsteps⟩ := List.getLast?_eq_some_iff.mp hlast
    rw [hsteps, List.dropLast_concat] at hwalk
    rw [List.getLast?_concat] at hshort
    exact ⟨parent, name, rfl, hpath, ⟨before, hsteps, walk_eq_ok.mp hwalk⟩,
      checkDirectory_eq_ok.mp hd, hshort⟩
  · cases h

theorem Aims.leads (h : d.Aims path parent name) (hkept : Kept d d')
    (hentry : (Disk.entry? d' (parent ++ [name])).isSome) : d'.Leads path (parent ++ [name]) := by
  obtain ⟨before, hsteps, hwalks⟩ := h.way
  unfold Leads
  rw [hsteps, hkept.start]
  exact (hkept.walks hwalks).append
    (.down (hkept.directories _ h.directory) h.short hentry .here)

theorem write_eq_ok (h : d.write path content = .ok d') : ∃ parent name,
    d.Aims path parent name ∧ endsInSlash path = false ∧
      d.hasDirectory (parent ++ [name]) = false ∧ d' = d.put (parent ++ [name]) (.file content) := by
  unfold write at h
  obtain ⟨found, htarget, h⟩ := bind_eq_ok.mp h
  cases found with
  | none => cases h
  | some place =>
    simp only at h
    split at h
    · cases h
    · next hslash =>
      obtain ⟨_, hshort, h⟩ := bind_eq_ok.mp h
      split at h
      · cases h
      · next hd =>
        cases h
        obtain ⟨parent, name, rfl, haims⟩ := aims_of_target? htarget hshort
        exact ⟨parent, name, haims, by simpa using hslash, by simpa using hd, rfl⟩

theorem createDirectory_eq_ok (h : d.createDirectory path = .ok d') : ∃ parent name,
    d.Aims path parent name ∧ d.entry? (parent ++ [name]) = none ∧
      d' = d.put (parent ++ [name]) .directory := by
  unfold createDirectory at h
  obtain ⟨found, htarget, h⟩ := bind_eq_ok.mp h
  cases found with
  | none => cases h
  | some place =>
    obtain ⟨_, hshort, h⟩ := bind_eq_ok.mp h
    split at h
    · cases h
    · next hentry =>
      cases h
      obtain ⟨parent, name, rfl, haims⟩ := aims_of_target? htarget hshort
      exact ⟨parent, name, haims, by simpa using hentry, rfl⟩

-- ---------------------------------------------------------------------------
-- Writing a file
-- ---------------------------------------------------------------------------

/-- `Written d path content place d'`: the file at `place`, where the path leads now, holds the
content, and all else is as it was. -/
structure Written (d : Disk) (path : String) (content : ByteArray) (place : Place) (d' : Disk) :
    Prop where
  kept : Kept d d'
  find : d'.find path = .ok place
  content : d'.content? place = some content
  others : ∀ other, other ≠ place → Disk.entry? d' other = d.entry? other
  directories : ∀ other, d'.hasDirectory other = d.hasDirectory other

theorem written_of_write (h : d.write path content = .ok d') : ∃ parent name,
    d.Aims path parent name ∧ Written d path content (parent ++ [name]) d' := by
  obtain ⟨parent, name, haims, hslash, hd, rfl⟩ := write_eq_ok h
  have hplace : parent ++ [name] ≠ [] := by simp
  have hkept : Kept d (d.put (parent ++ [name]) (.file content)) :=
    .put hplace fun h => absurd h (by simp [hd])
  have hsome := entry?_put_self hplace d (.file content)
  refine ⟨parent, name, haims, hkept, ?_, content?_eq_some.mpr hsome,
    fun other hne => entry?_put_of_ne hne .., fun other => ?_⟩
  · refine find_eq_ok.mpr ⟨haims.possible, haims.leads hkept (by rw [hsome]; rfl), fun hs => ?_⟩
    rw [hslash] at hs
    cases hs
  · by_cases heq : other = parent ++ [name]
    · rw [heq, hd, hasDirectory, hsome]
    · rw [hasDirectory, hasDirectory, entry?_put_of_ne heq]

-- ---------------------------------------------------------------------------
-- Making directories
-- ---------------------------------------------------------------------------

/-- Directories to which the paths lead are made, and nothing else. -/
structure Made (paths : List String) (d d' : Disk) : Prop where
  kept : Kept d d'
  contents : ∀ place, d'.content? place = d.content? place
  directories : ∀ place, d'.hasDirectory place = true →
    d.hasDirectory place = true ∨ ∃ path ∈ paths, d'.Leads path place

variable {paths : List String}

theorem Made.refl (paths : List String) (d : Disk) : Made paths d d :=
  ⟨.refl d, fun _ => rfl, fun _ => .inl⟩

theorem Made.trans (h : Made paths d d') (h' : Made paths d' d'') : Made paths d d'' where
  kept := h.kept.trans h'.kept
  contents place := (h'.contents place).trans (h.contents place)
  directories place hplace := by
    rcases h'.directories place hplace with hplace | hnew
    · rcases h.directories place hplace with hold | ⟨path, hpath, hleads⟩
      · exact .inl hold
      · exact .inr ⟨path, hpath, h'.kept.leads hleads⟩
    · exact .inr hnew

theorem Made.mono {more : List String} (h : Made paths d d') (hsub : paths ⊆ more) :
    Made more d d' where
  kept := h.kept
  contents := h.contents
  directories place hplace := by
    rcases h.directories place hplace with hold | ⟨path, hpath, hleads⟩
    · exact .inl hold
    · exact .inr ⟨path, hsub hpath, hleads⟩

theorem made_of_createDirectory (h : d.createDirectory path = .ok d') (hpath : path ∈ paths) :
    Made paths d d' ∧ d'.isDirectory path = true := by
  obtain ⟨parent, name, haims, hnone, rfl⟩ := createDirectory_eq_ok h
  have hplace : parent ++ [name] ≠ [] := by simp
  have hkept : Kept d (d.put (parent ++ [name]) .directory) := .put hplace fun _ => rfl
  have hsome := entry?_put_self hplace d .directory
  have hleads := haims.leads hkept (by rw [hsome]; rfl)
  refine ⟨⟨hkept, fun other => ?_, fun other hother => ?_⟩, ?_⟩
  · by_cases heq : other = parent ++ [name]
    · rw [heq, content?, content?, hsome, hnone]
    · exact content?_congr (entry?_put_of_ne heq ..)
  · by_cases heq : other = parent ++ [name]
    · exact .inr ⟨path, hpath, heq ▸ hleads⟩
    · rw [hasDirectory, entry?_put_of_ne heq] at hother
      exact .inl hother
  · have hd := hasDirectory_iff.mpr hsome
    exact isDirectory_iff.mpr ⟨_, find_eq_ok.mpr ⟨haims.possible, hleads, fun _ => hd⟩, hd⟩

theorem run_change (f : Disk → Except Cause Disk) (d : Disk) : (change f).run d =
    match f d with
    | .ok d' => (.ok (), d')
    | .error cause => (.error cause, d) := by
  rw [change, run_bind, run_get]
  simp only
  cases f d <;> rfl

theorem eq_ok_of_change {f : Disk → Except Cause Disk} (h : (change f).run d = (.ok u, d')) :
    f d = .ok d' := by
  rw [run_change] at h
  cases hf : f d <;> rw [hf] at h <;> cases h
  rfl

theorem eq_of_change_error {f : Disk → Except Cause Disk}
    (h : (change f).run d = (.error cause, d')) : d' = d := by
  rw [run_change] at h
  cases hf : f d <;> rw [hf] at h <;> cases h
  rfl

theorem run_tryCatch (x : Action α) (handle : Cause → Action α) (d : Disk) :
    (tryCatch x handle).run d = match x.run d with
      | (.ok a, d') => (.ok a, d')
      | (.error cause, d') => (handle cause).run d' := by
  simp only [tryCatch, tryCatchThe, MonadExceptOf.tryCatch, ExceptT.tryCatch, ExceptT.run, ExceptT.mk,
    bind, StateT.bind]
  rcases x d with ⟨_ | _, _⟩ <;> rfl

theorem made_of_ensureDirectory (h : (ensureDirectory path).run d = (r, d')) (hpath : path ∈ paths) :
    Made paths d d' ∧ (r = .ok () → d'.isDirectory path = true) := by
  rw [ensureDirectory, run_tryCatch, run_change] at h
  cases hc : d.createDirectory path with
  | ok made =>
    rw [hc] at h
    cases h
    obtain ⟨hmade, hd⟩ := made_of_createDirectory hc hpath
    exact ⟨hmade, fun _ => hd⟩
  | error cause =>
    rw [hc] at h
    simp only [run_bind, run_get] at h
    cases hd : d.isDirectory path with
    | true =>
      rw [hd] at h
      cases h
      exact ⟨.refl .., fun _ => hd⟩
    | false =>
      rw [hd] at h
      cases h
      exact ⟨.refl .., nofun⟩

theorem made_of_ensureAll (h : (ensureAll paths).run d = (r, d')) :
    Made paths d d' ∧
      (r = .ok () → ∀ path ∈ paths.head?, path ≠ "" → d'.isDirectory path = true) := by
  induction paths generalizing d d' r with
  | nil =>
    cases h
    exact ⟨.refl .., nofun⟩
  | cons path above ih =>
    have hmem : path ∈ path :: above := List.mem_cons_self
    rw [ensureAll] at h
    split at h
    · next hempty =>
      cases h
      refine ⟨.refl .., fun _ other hother hne => ?_⟩
      cases hother
      exact absurd hempty hne
    · rw [run_tryCatch] at h
      rcases hrun : (ensureDirectory path).run d with ⟨cause | ⟨⟩, d₁⟩
      · have hmade := (made_of_ensureDirectory hrun hmem).1
        rw [hrun] at h
        cases cause with
        | missing =>
          simp only [run_bind] at h
          rcases habove : (ensureAll above).run d₁ with ⟨cause | ⟨⟩, d₂⟩
          · rw [habove] at h
            cases h
            exact ⟨hmade.trans ((ih habove).1.mono (List.subset_cons_self ..)), nofun⟩
          · rw [habove] at h
            obtain ⟨hmade', hd⟩ := made_of_ensureDirectory h hmem
            refine ⟨(hmade.trans ((ih habove).1.mono (List.subset_cons_self ..))).trans hmade', ?_⟩
            rintro hok other ⟨⟩ -
            exact hd hok
        | _ =>
          cases h
          exact ⟨hmade, nofun⟩
      · rw [hrun] at h
        cases h
        obtain ⟨hmade, hd⟩ := made_of_ensureDirectory hrun hmem
        refine ⟨hmade, ?_⟩
        rintro - other ⟨⟩ -
        exact hd rfl

end SimSetup.Files.Disk
