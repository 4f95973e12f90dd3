import SimSetup.Proofs.Deployment.Delivery

/-!
# What a script depends on

Filling looks up the placeholders of a template and nothing else, and a script takes its name
besides. Bindings that agree on these keys make the same script or fail alike wherever else they
differ, and so do the environments, configurations and arguments that bindings come from.
-/

namespace SimSetup

open Files (Disk)
open Project (Config)

namespace Template

/-- The two give the same value to each of the keys, or both give it none. -/
def AgreeOn (keys : List String) (bindings bindings' : Bindings) : Prop :=
  ∀ key ∈ keys, bindings[key]? = bindings'[key]?

theorem AgreeOn.mono (h : AgreeOn keys bindings bindings') (hkeys : ∀ key ∈ fewer, key ∈ keys) :
    AgreeOn fewer bindings bindings' :=
  fun key hkey => h key (hkeys key hkey)

theorem AgreeOn.union (h : AgreeOn keys lower lower') (h' : AgreeOn keys upper upper') :
    AgreeOn keys (lower ∪ upper) (lower' ∪ upper') := by
  intro key hkey
  rw [Std.ExtTreeMap.getElem?_union, Std.ExtTreeMap.getElem?_union, h key hkey, h' key hkey]

theorem AgreeOn.substitute {template : String} (h : AgreeOn (placeholders template) bindings bindings') :
    substitute template bindings = substitute template bindings' := by
  have hexpand : ∀ e ∈ lex template, expand template bindings e = expand template bindings' e :=
    fun e he => expand_congr (fun key hkey => h key (mem_placeholders.mpr ⟨e, he, hkey⟩)) e.2
  rw [Template.substitute, Template.substitute, mapM_congr hexpand]

end Template

namespace Project.Config

theorem agreeOn_ambient {config config' : Config} {environment environment' : Environment}
    (hinherit : config.inheritEnvironment = config'.inheritEnvironment)
    (hinherited : config.inheritEnvironment = true →
      Template.AgreeOn keys environment.bindings environment'.bindings)
    (hconfigured : ∀ key ∈ keys, config.env[key]? = config'.env[key]?) :
    Template.AgreeOn keys (config.ambient environment) (config'.ambient environment') := by
  have henv : Template.AgreeOn keys config.envBindings config'.envBindings := by
    intro key hkey
    rw [envBindings, envBindings, Std.ExtTreeMap.getElem?_map, Std.ExtTreeMap.getElem?_map,
      hconfigured key hkey]
  unfold ambient
  rw [← hinherit]
  split
  · next h => exact (hinherited h).union henv
  · exact henv

end Project.Config

namespace Deployment

open Template (AgreeOn Bindings Extends placeholders substitute)

theorem scriptOf_congr (h : AgreeOn (nameKey :: placeholders text) bindings bindings') :
    scriptOf text bindings = scriptOf text bindings' := by
  have hfilled := AgreeOn.substitute (h.mono fun _ => List.mem_cons_of_mem _)
  rw [scriptOf, scriptOf, hfilled, h nameKey List.mem_cons_self]

section
variable {d d' : Deployment} {template text : String} {arguments arguments' : Bindings} {disk : Disk}
  (hsource : d.source template disk = .ok text) (htemplates : d.templatesDir = d'.templatesDir)
  (h : AgreeOn (nameKey :: placeholders text) (d.merged arguments) (d'.merged arguments'))
include hsource htemplates h

theorem render_congr : onDisk (d.render template arguments) disk =
    onDisk (d'.render template arguments') disk := by
  have hsource' : d'.source template disk = .ok text := by
    rw [← hsource, source, source, load, load, templatePath, templatePath, htemplates]
  rw [onDisk, onDisk, run_render, run_render, hsource, hsource']
  exact congrArg (·, disk) (scriptOf_congr h)

theorem fill_congr (houtput : d.outputDir = d'.outputDir) :
    onDisk (d.fill template arguments) disk = onDisk (d'.fill template arguments') disk := by
  have hdeliver : d.deliver = d'.deliver := by
    funext script
    rw [deliver, deliver, scriptPath, scriptPath, houtput]
  have hrender := render_congr hsource htemplates h
  rw [onDisk, onDisk] at hrender ⊢
  rw [fill_eq, fill_eq, run_bind, run_bind, hrender, hdeliver]

end

/-- What two deployments are made from, and the arguments of a call: the directories are the same,
and what is given for the keys agrees. -/
structure Agree (keys : List String) (config config' : Config)
    (environment environment' : Environment) (arguments arguments' : Bindings) : Prop where
  templatesPath : config.templatesPath = config'.templatesPath
  outputPath : config.outputPath = config'.outputPath
  inheritEnvironment : config.inheritEnvironment = config'.inheritEnvironment
  inherited : config.inheritEnvironment = true →
    AgreeOn keys environment.bindings environment'.bindings
  configured : ∀ key ∈ keys, config.env[key]? = config'.env[key]?
  given : AgreeOn keys arguments arguments'

theorem Agree.merged (h : Agree keys config config' environment environment' arguments arguments') :
    AgreeOn keys ((ofConfig config environment).merged arguments)
      ((ofConfig config' environment').merged arguments') :=
  (Config.agreeOn_ambient h.inheritEnvironment h.inherited h.configured).union h.given

/-- Only bindings that a template refers to matter to what it is filled to, and only these and the
name to the script. More bindings leave a template that can be filled as it is filled. -/
theorem only_referenced_bindings :
    (∀ (text : String) (bindings bindings' : Bindings),
      AgreeOn (placeholders text) bindings bindings' →
        substitute text bindings = substitute text bindings') ∧
    (∀ (d d' : Deployment) (template text : String) (arguments arguments' : Bindings) (disk : Disk),
      d.source template disk = .ok text → d.templatesDir = d'.templatesDir →
      AgreeOn (nameKey :: placeholders text) (d.merged arguments) (d'.merged arguments') →
        onDisk (d.render template arguments) disk = onDisk (d'.render template arguments') disk) ∧
    (∀ (config config' : Config) (environment environment' : Environment)
      (template text : String) (arguments arguments' : Bindings) (disk : Disk),
      (ofConfig config environment).source template disk = .ok text →
      Agree (nameKey :: placeholders text) config config' environment environment' arguments
        arguments' →
        onDisk ((ofConfig config environment).fill template arguments) disk =
          onDisk ((ofConfig config' environment').fill template arguments') disk) ∧
    ∀ (text filled : String) (larger smaller : Bindings), Extends larger smaller →
      substitute text smaller = .ok filled → substitute text larger = .ok filled := by
  refine ⟨fun _ _ _ h => h.substitute, fun _ _ _ _ _ _ _ hsource htemplates h =>
    render_congr hsource htemplates h, fun _ _ _ _ _ _ _ _ _ hsource h =>
    fill_congr hsource h.templatesPath h.merged h.outputPath, ?_⟩
  intro text filled larger smaller hextends hfilled
  exact (hextends.substitute fun _ _ hmissing => nomatch hfilled.symm.trans hmissing).trans hfilled

theorem only_referenced_bindings_unused : ∃ (config config' : Config)
    (environment environment' : Environment) (arguments arguments' : Bindings) (disk : Disk),
    environment.bindings["HOME"]? ≠ environment'.bindings["HOME"]? ∧
      config.envBindings["cores"]? ≠ config'.envBindings["cores"]? ∧
      arguments["queue"]? ≠ arguments'["queue"]? ∧
      (onDisk ((ofConfig config environment).fill "job" arguments) disk).1 =
        .ok "./deploy/.jobscripts/n.sh" ∧
      onDisk ((ofConfig config environment).fill "job" arguments) disk =
        onDisk ((ofConfig config' environment').fill "job" arguments') disk := by
  let config : Config := .default
  let config' : Config := { config with env := .ofList [("cores", Toml.Value.integer 4)] }
  let environment : Environment := [("who".toUTF8, "x".toUTF8), ("HOME".toUTF8, "/a".toUTF8)]
  let environment' : Environment := [("HOME".toUTF8, "/b".toUTF8), ("who".toUTF8, "x".toUTF8)]
  let arguments : Bindings := .ofList [("name", "n")]
  let arguments' : Bindings := .ofList [("name", "n"), ("queue", "q")]
  let disk : Disk := ⟨.ofList [(["deploy"], Files.Entry.directory),
    (["deploy", "templates"], Files.Entry.directory),
    (["deploy", "templates", "job"], Files.Entry.file "$who".toUTF8)], []⟩
  have hsource : (ofConfig config environment).source "job" disk = .ok "$who" :=
    eq_ok_of_toOption (by decide +kernel)
  have hagree : Agree (nameKey :: placeholders "$who") config config' environment environment'
      arguments arguments' := by
    have hkeys : nameKey :: placeholders "$who" = ["name", "who"] := by decide +kernel
    rw [hkeys]
    refine ⟨rfl, rfl, rfl, fun _ => ?_, ?_, ?_⟩
    · unfold AgreeOn
      decide +kernel
    · have hnone : ∀ key ∈ ["name", "who"], config'.env.contains key = false := by decide +kernel
      intro key hkey
      rw [Std.ExtTreeMap.getElem?_eq_none_of_contains_eq_false (hnone key hkey)]
      rfl
    · unfold AgreeOn
      decide +kernel
  refine ⟨config, config', environment, environment', arguments, arguments', disk,
    by decide +kernel, by decide +kernel, by decide +kernel, eq_ok_of_toOption (by decide +kernel),
    ?_⟩
  exact only_referenced_bindings.2.2.1 config config' environment environment' "job" "$who"
    arguments arguments' disk hsource hagree

end Deployment

end SimSetup
