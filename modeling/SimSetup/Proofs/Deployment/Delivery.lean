import SimSetup.Proofs.Command.Run
import SimSetup.Proofs.Files.Disk
import SimSetup.Proofs.Files.Path

/-!
# Where a script goes

Filling a template changes a disk only when the script is written: what is made then are the output
directory with those it lies in, and the file of the script. The file lies in the output directory
under the name of the script as long as that name has no slash; a name that has one takes the file
to wherever the path leads.
-/

namespace SimSetup.Deployment

open Files (Disk)
open Files.Disk (Kept Made Written)
open Template (Bindings)

abbrev onDisk (action : ExceptT Fault (StateM Disk) α) (disk : Disk) : Except Fault α × Disk :=
  action.run disk

/-- `Delivered outputDir path content disk disk' place`: the file at `place`, where the path leads,
holds the content; every other file is as it was, and new directories are the output directory and
those it lies in. -/
structure Delivered (outputDir path : String) (content : ByteArray) (disk disk' : Disk)
    (place : Files.Place) : Prop where
  find : disk'.find path = .ok place
  read : disk'.read path = .ok content
  others : ∀ other, other ≠ place → disk'.content? other = disk.content? other
  kept : ∀ other, disk.hasDirectory other = true → disk'.hasDirectory other = true
  directories : ∀ other, disk'.hasDirectory other = true → disk.hasDirectory other = true ∨
    ∃ directory ∈ outputDir :: Files.ancestors outputDir, disk'.Leads directory other

-- ---------------------------------------------------------------------------
-- Delivery
-- ---------------------------------------------------------------------------

section
variable {d : Deployment} {script : Script} {disk disk' : Disk}

theorem deliver_cases (h : onDisk (d.deliver script) disk = (r, disk')) :
    (∃ path cause, r = .error (.inaccessible path cause) ∧
        Made (d.outputDir :: Files.ancestors d.outputDir) disk disk') ∨
      ∃ made parent name, r = .ok (d.scriptPath script.name) ∧
        Made (d.outputDir :: Files.ancestors d.outputDir) disk made ∧
        (d.outputDir ≠ "" → made.isDirectory d.outputDir = true) ∧
        made.Aims (d.scriptPath script.name) parent name ∧
        Written made (d.scriptPath script.name) script.text.toUTF8 (parent ++ [name]) disk' := by
  rw [onDisk, deliver] at h
  rcases bind_cases h with ⟨_, hmake, rfl⟩ | ⟨_, made, hmake, hrest⟩
  · rcases adapt_cases hmake with ⟨cause, hensure, ⟨⟩⟩ | ⟨_, -, ⟨⟩⟩
    exact .inl ⟨_, cause, rfl, (Files.Disk.made_of_ensureAll hensure).1⟩
  rcases adapt_cases hmake with ⟨_, -, ⟨⟩⟩ | ⟨_, hensure, -⟩
  obtain ⟨hmade, hdirectory⟩ := Files.Disk.made_of_ensureAll hensure
  rcases bind_cases hrest with ⟨_, hwrite, rfl⟩ | ⟨_, written, hwrite, hrest⟩
  · rcases adapt_cases hwrite with ⟨cause, hput, ⟨⟩⟩ | ⟨_, -, ⟨⟩⟩
    obtain rfl := Files.Disk.eq_of_change_error hput
    exact .inl ⟨_, cause, rfl, hmade⟩
  rcases adapt_cases hwrite with ⟨_, -, ⟨⟩⟩ | ⟨_, hput, -⟩
  cases hrest
  obtain ⟨parent, name, haims, hwritten⟩ :=
    Files.Disk.written_of_write (Files.Disk.eq_ok_of_change hput)
  exact .inr ⟨made, parent, name, rfl, hmade, fun hne => hdirectory rfl _ rfl hne, haims, hwritten⟩

theorem delivered_of_written {outputDir path : String}
    (hmade : Made (outputDir :: Files.ancestors outputDir) disk made)
    (hwritten : Written made path content place disk') :
    Delivered outputDir path content disk disk' place where
  find := hwritten.find
  read := (Files.Disk.read_eq_ok hwritten.find).mpr hwritten.content
  others other hother :=
    (Files.Disk.content?_congr (hwritten.others other hother)).trans (hmade.contents other)
  kept other hother := hwritten.kept.directories other (hmade.kept.directories other hother)
  directories other hother := by
    rw [hwritten.directories] at hother
    rcases hmade.directories other hother with hold | ⟨directory, hmem, hleads⟩
    · exact .inl hold
    · exact .inr ⟨directory, hmem, hwritten.kept.leads hleads⟩

end

section
variable {d : Deployment} {template : String} {arguments : Bindings} {disk disk' : Disk}

theorem run_fill_of_error (h : (onDisk (d.render template arguments) disk).1 = .error fault) :
    onDisk (d.fill template arguments) disk = (.error fault, disk) := by
  rw [onDisk, run_render] at h
  rw [onDisk, fill_eq, run_bind, run_render]
  simp only at h
  rw [h]

theorem run_fill_of_ok (h : (onDisk (d.render template arguments) disk).1 = .ok script) :
    onDisk (d.fill template arguments) disk = onDisk (d.deliver script) disk := by
  rw [onDisk, run_render] at h
  rw [onDisk, fill_eq, run_bind, run_render]
  simp only at h
  rw [h]

theorem fill_cases (h : onDisk (d.fill template arguments) disk = (r, disk')) :
    (∃ fault, (onDisk (d.render template arguments) disk).1 = .error fault ∧ r = .error fault ∧
        disk' = disk) ∨
      ∃ script, (onDisk (d.render template arguments) disk).1 = .ok script ∧
        ((∃ path cause, r = .error (.inaccessible path cause) ∧
            Made (d.outputDir :: Files.ancestors d.outputDir) disk disk') ∨
          ∃ made parent name, r = .ok (d.scriptPath script.name) ∧
            Made (d.outputDir :: Files.ancestors d.outputDir) disk made ∧
            (d.outputDir ≠ "" → made.isDirectory d.outputDir = true) ∧
            made.Aims (d.scriptPath script.name) parent name ∧
            Written made (d.scriptPath script.name) script.text.toUTF8 (parent ++ [name]) disk') := by
  cases hscript : (onDisk (d.render template arguments) disk).1 with
  | error fault =>
    rw [run_fill_of_error hscript] at h
    cases h
    exact .inl ⟨fault, rfl, rfl, rfl⟩
  | ok script =>
    rw [run_fill_of_ok hscript] at h
    exact .inr ⟨script, rfl, deliver_cases h⟩

theorem name_of_render (h : (onDisk (d.render template arguments) disk).1 = .ok script) :
    (d.merged arguments)[nameKey]? = some script.name := by
  rw [onDisk, run_render] at h
  cases hsource : d.source template disk with
  | error fault =>
    rw [hsource] at h
    cases h
  | ok text =>
    rw [hsource] at h
    exact name_of_scriptOf h

end

/-- Reading a template changes nothing, and filling one changes nothing either when it fails for any
other reason than that a file or a directory is out of reach. When a script is written, it is the
one that is rendered, at the path that its name gives. -/
theorem fill_effect (d : Deployment) (template : String) (arguments : Bindings) (disk : Disk) :
    (onDisk (d.load template) disk).2 = disk ∧
      (onDisk (d.unbound template arguments) disk).2 = disk ∧
      (onDisk (d.render template arguments) disk).2 = disk ∧
      (∀ fault, (onDisk (d.render template arguments) disk).1 = .error fault →
        onDisk (d.fill template arguments) disk = (.error fault, disk)) ∧
      (∀ fault, (onDisk (d.fill template arguments) disk).1 = .error fault →
        (∀ path cause, fault ≠ .inaccessible path cause) →
        (onDisk (d.fill template arguments) disk).2 = disk) ∧
      ∀ path, (onDisk (d.fill template arguments) disk).1 = .ok path →
        ∃ script place, (onDisk (d.render template arguments) disk).1 = .ok script ∧
          path = d.scriptPath script.name ∧
          Delivered d.outputDir path script.text.toUTF8 disk
            (onDisk (d.fill template arguments) disk).2 place := by
  have hload := congrArg Prod.snd (d.run_load template disk)
  have hunbound := congrArg Prod.snd (d.run_unbound template arguments disk)
  have hrender := congrArg Prod.snd (d.run_render template arguments disk)
  refine ⟨hload, hunbound, hrender, fun _ => run_fill_of_error, ?_⟩
  rcases hrun : onDisk (d.fill template arguments) disk with ⟨r, disk'⟩
  constructor
  · rintro fault rfl hreach
    rcases fill_cases hrun with ⟨_, -, -, rfl⟩ | ⟨_, -, ⟨path, cause, ⟨⟩, -⟩ | ⟨_, _, _, ⟨⟩, -⟩⟩
    · rfl
    · exact absurd rfl (hreach path cause)
  · rintro path rfl
    rcases fill_cases hrun with ⟨_, -, ⟨⟩, -⟩ | ⟨script, hscript, ⟨_, _, ⟨⟩, -⟩ |
      ⟨made, parent, name, ⟨⟩, hmade, -, -, hwritten⟩⟩
    exact ⟨script, _, hscript, rfl, delivered_of_written hmade hwritten⟩

theorem fill_effect_over_template : ∃ (d : Deployment) (arguments : Bindings) (disk : Disk)
    (script : Script) (place : Files.Place),
    disk.read "out/job.sh" = .ok "run $name".toUTF8 ∧
      (onDisk (d.render "job.sh" arguments) disk).1 = .ok script ∧
      Delivered "out" "out/job.sh" script.text.toUTF8 disk
        (onDisk (d.fill "job.sh" arguments) disk).2 place := by
  let d : Deployment := ⟨"out", "out", ∅⟩
  let arguments : Bindings := .ofList [("name", "job")]
  let disk : Disk := ⟨.ofList [(["out"], Files.Entry.directory),
    (["out", "job.sh"], Files.Entry.file "run $name".toUTF8)], []⟩
  have hread : disk.read "out/job.sh" = .ok "run $name".toUTF8 :=
    eq_ok_of_toOption (by decide +kernel)
  have hpath : (onDisk (d.fill "job.sh" arguments) disk).1 = .ok "out/job.sh" :=
    eq_ok_of_toOption (by decide +kernel)
  obtain ⟨script, place, hscript, -, hdelivered⟩ :=
    (fill_effect d "job.sh" arguments disk).2.2.2.2.2 _ hpath
  exact ⟨d, arguments, disk, script, place, hread, hscript, hdelivered⟩

-- ---------------------------------------------------------------------------
-- The name of the script
-- ---------------------------------------------------------------------------

section
variable {d : Deployment} {disk disk' : Disk}

theorem scriptPath_of_name {name : String} (h : '/' ∉ name.toList) :
    Files.isAbsolute (d.scriptPath name) = Files.isAbsolute d.outputDir ∧
      Files.steps (d.scriptPath name) =
        Files.steps d.outputDir ++ [.down (name ++ "." ++ scriptExtension)] := by
  have hname : '/' ∉ (name ++ "." ++ scriptExtension).toList := by
    simpa [scriptExtension] using h
  have hlong : 2 < (name ++ "." ++ scriptExtension).length := by
    have hextension : 2 < ".".length + scriptExtension.length := by decide
    rw [String.length_append, String.length_append]
    omega
  have habsolute := Files.isAbsolute_of_name hname
  exact ⟨Files.isAbsolute_join habsolute,
    (Files.steps_join habsolute).trans (congrArg _ (Files.steps_of_name hname hlong))⟩

theorem parent_of_name {script : Script} {made : Disk} (h : '/' ∉ script.name.toList)
    (haims : made.Aims (d.scriptPath script.name) parent name) :
    made.Leads d.outputDir parent ∧ name = script.name ++ "." ++ scriptExtension := by
  obtain ⟨before, hsteps, hwalks⟩ := haims.way
  obtain ⟨habsolute, hjoined⟩ := scriptPath_of_name (d := d) h
  rw [hjoined] at hsteps
  obtain ⟨hbefore, hlast⟩ := List.append_inj' hsteps rfl
  cases hlast
  refine ⟨?_, rfl⟩
  rw [Files.Disk.Leads, hbefore, Disk.start, ← habsolute]
  exact hwalks

theorem exists_folder (h : d.outputDir ≠ "" → disk.isDirectory d.outputDir = true) :
    ∃ folder, disk.Leads d.outputDir folder := by
  by_cases hempty : d.outputDir = ""
  · rw [hempty]
    exact ⟨_, .here⟩
  · obtain ⟨folder, hfind, -⟩ := Files.Disk.isDirectory_iff.mp (h hempty)
    exact ⟨folder, (Files.Disk.find_eq_ok.mp hfind).2.1⟩

end

/-- However filling ends, it changes one file at most, that of the script it delivers. The file lies
in the output directory and has the name of the script with the extension exactly when no slash is
in that name. -/
theorem fill_inside_iff (d : Deployment) (template : String) (arguments : Bindings)
    (disk disk' : Disk) :
    (∀ fault, onDisk (d.fill template arguments) disk = (.error fault, disk') →
        ∀ place, disk'.content? place = disk.content? place) ∧
      ∀ path, onDisk (d.fill template arguments) disk = (.ok path, disk') →
        ∃ name folder place, (d.merged arguments)[nameKey]? = some name ∧
          disk'.Leads d.outputDir folder ∧ disk'.find path = .ok place ∧
          (∀ other, other ≠ place → disk'.content? other = disk.content? other) ∧
          (place = folder ++ [name ++ "." ++ scriptExtension] ↔ '/' ∉ name.toList) := by
  constructor
  · intro fault h place
    rcases fill_cases h with ⟨_, -, -, rfl⟩ | ⟨_, -, ⟨_, _, -, hmade⟩ | ⟨_, _, _, ⟨⟩, -⟩⟩
    · rfl
    · exact hmade.contents place
  · intro path h
    rcases fill_cases h with ⟨_, -, ⟨⟩, -⟩ | ⟨script, hscript, ⟨_, _, ⟨⟩, -⟩ |
      ⟨made, parent, last, ⟨⟩, hmade, hdirectory, haims, hwritten⟩⟩
    have hdelivered := delivered_of_written hmade hwritten
    have hname := name_of_render hscript
    by_cases hslash : '/' ∈ script.name.toList
    · obtain ⟨folder, hfolder⟩ := exists_folder hdirectory
      refine ⟨_, folder, _, hname, hwritten.kept.leads hfolder, hdelivered.find, hdelivered.others, ?_⟩
      simp only [hslash, not_true_eq_false, iff_false]
      -- the file is called by the last step of the path, and no step has a slash
      intro heq
      obtain ⟨before, hsteps, -⟩ := haims.way
      have hmem : Files.Step.down last ∈ Files.steps (d.scriptPath script.name) := by
        rw [hsteps]
        simp
      have hlast := Files.not_slash_mem_of_down hmem
      cases (List.append_inj' heq rfl).2
      exact hlast (by simp [hslash])
    · obtain ⟨hfolder, rfl⟩ := parent_of_name hslash haims
      exact ⟨_, parent, _, hname, hwritten.kept.leads hfolder, hdelivered.find, hdelivered.others,
        iff_of_true rfl hslash⟩

theorem fill_inside_iff_dots : ∃ (d : Deployment) (arguments : Bindings) (disk disk' : Disk)
    (folder : Files.Place),
    onDisk (d.fill "job" arguments) disk = (.ok "out/..x.sh", disk') ∧
      disk'.Leads "out" folder ∧ disk'.find "out/..x.sh" = .ok (folder ++ ["..x.sh"]) := by
  let d : Deployment := ⟨"templates", "out", ∅⟩
  let arguments : Bindings := .ofList [("name", "..x")]
  let disk : Disk := ⟨.ofList [(["templates"], Files.Entry.directory),
    (["templates", "job"], Files.Entry.file "run $name".toUTF8)], []⟩
  have hpath : (onDisk (d.fill "job" arguments) disk).1 = .ok "out/..x.sh" :=
    eq_ok_of_toOption (by decide +kernel)
  have hrun : onDisk (d.fill "job" arguments) disk =
    (.ok "out/..x.sh", (onDisk (d.fill "job" arguments) disk).2) := Prod.ext hpath rfl
  obtain ⟨name, folder, place, hname, hfolder, hfind, -, hinside⟩ :=
    (fill_inside_iff d "job" arguments disk _).2 _ hrun
  have hmerged : (d.merged arguments)[nameKey]? = some "..x" := by decide +kernel
  obtain rfl : "..x" = name := Option.some.inj (hmerged.symm.trans hname)
  obtain rfl := hinside.mpr (by decide)
  exact ⟨d, arguments, disk, _, folder, hrun, hfolder, hfind⟩

/-- A name that leads up takes the script out of the output directory. -/
theorem fill_not_inside : ¬ ∀ (d : Deployment) (template : String) (arguments : Bindings)
    (disk disk' : Disk) (path name : String), (d.merged arguments)[nameKey]? = some name →
    onDisk (d.fill template arguments) disk = (.ok path, disk') →
    ∃ folder, disk'.Leads d.outputDir folder ∧
      disk'.find path = .ok (folder ++ [name ++ "." ++ scriptExtension]) ∧
      ∀ other, other ≠ folder ++ [name ++ "." ++ scriptExtension] →
        disk'.content? other = disk.content? other := by
  intro h
  let d : Deployment := ⟨"templates", "out", ∅⟩
  let arguments : Bindings := .ofList [("name", "../x")]
  let disk : Disk := ⟨.ofList [(["templates"], Files.Entry.directory),
    (["templates", "job"], Files.Entry.file "run $name".toUTF8)], []⟩
  have hname : (d.merged arguments)[nameKey]? = some "../x" := by decide +kernel
  have hpath : (onDisk (d.fill "job" arguments) disk).1 = .ok "out/../x.sh" :=
    eq_ok_of_toOption (by decide +kernel)
  have hfind : (onDisk (d.fill "job" arguments) disk).2.find "out/../x.sh" = .ok ["x.sh"] :=
    eq_ok_of_toOption (by decide +kernel)
  obtain ⟨folder, -, hfolder, -⟩ := h d "job" arguments disk _ _ _ hname (Prod.ext hpath rfl)
  have hplace : [] ++ ["x.sh"] = folder ++ ["../x" ++ "." ++ scriptExtension] :=
    Except.ok.inj (hfind.symm.trans hfolder)
  have hlast := (List.append_inj' hplace rfl).2
  exact absurd hlast (by decide)

end SimSetup.Deployment
