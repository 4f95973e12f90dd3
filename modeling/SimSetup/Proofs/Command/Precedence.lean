import Mathlib.Data.List.TakeDrop
import Mathlib.Data.List.TakeWhile
import SimSetup.Proofs.Command.Isolation

/-!
# Where a binding comes from

A key is bound by the last option that sets it; else by the configuration; else by the environment,
if the call lets it in and the variable is text; else not at all. The layers are merged as maps, and
this is what the merging comes to, whatever keys collide. One value is not bound as a document writes
it: a date or time that is configured by itself.
-/

namespace SimSetup

open Project (Config)

-- ---------------------------------------------------------------------------
-- Variables
-- ---------------------------------------------------------------------------

theorem fromUTF8?_eq_some {bytes : ByteArray} {s : String} :
    String.fromUTF8? bytes = some s ↔ bytes = s.toUTF8 := by
  constructor
  · intro h
    unfold String.fromUTF8? at h
    split at h
    · cases h
      rfl
    · cases h
  · rintro rfl
    exact fromUTF8?_toUTF8 s

namespace Environment

def decode? : ByteArray × ByteArray → Option (String × String)
  | (name, value) => do return (← String.fromUTF8? name, ← String.fromUTF8? value)

theorem decode?_eq_some {bytes : ByteArray × ByteArray} {key value : String} :
    decode? bytes = some (key, value) ↔ bytes = (key.toUTF8, value.toUTF8) := by
  simp [decode?, Option.bind_eq_some_iff, fromUTF8?_eq_some, Prod.ext_iff]

theorem bindings_eq (environment : Environment) :
    environment.bindings = .ofList (environment.filterMap decode?) := rfl

variable {environment : Environment}

theorem mem_decoded {key value : String} :
    (key, value) ∈ environment.filterMap decode? ↔ (key.toUTF8, value.toUTF8) ∈ environment := by
  simp [List.mem_filterMap, decode?_eq_some]

section
variable (hnames : (environment.map Prod.fst).Nodup)
include hnames

theorem distinct_decoded :
    (environment.filterMap decode?).Pairwise fun a b => ¬ compare a.1 b.1 = .eq := by
  refine (List.pairwise_map.mp hnames).filterMap _ ?_
  rintro a a' hne ⟨key, value⟩ hb ⟨key', value'⟩ hb' heq
  rw [decode?_eq_some] at hb hb'
  subst hb hb'
  exact hne (congrArg String.toUTF8 (Std.LawfulEqCmp.eq_of_compare heq))

theorem getElem?_bindings {key value : String} :
    environment.bindings[key]? = some value ↔ (key.toUTF8, value.toUTF8) ∈ environment := by
  have hbound {value : String} (h : (key.toUTF8, value.toUTF8) ∈ environment) :
      environment.bindings[key]? = some value := by
    rw [bindings_eq]
    exact Std.ExtTreeMap.getElem?_ofList_of_mem Std.ReflCmp.compare_self (distinct_decoded hnames)
      (mem_decoded.mpr h)
  refine ⟨fun h => ?_, hbound⟩
  have hkey : key ∈ environment.bindings := by
    simp [Std.ExtTreeMap.mem_iff_isSome_getElem?, h]
  rw [bindings_eq, Std.ExtTreeMap.mem_ofList, List.contains_iff_mem, List.mem_map] at hkey
  obtain ⟨⟨_, value'⟩, hmem, rfl⟩ := hkey
  have hvariable := mem_decoded.mp hmem
  rw [hbound hvariable] at h
  cases h
  exact hvariable

end

end Environment

-- ---------------------------------------------------------------------------
-- Dates and times
-- ---------------------------------------------------------------------------

namespace Toml

theorem isDigit_of_mem_padded (h : c ∈ padded width n) : c.isDigit := by
  obtain h | h := List.mem_append.mp h
  · rw [List.eq_of_mem_replicate h]
    rfl
  · exact Nat.isDigit_of_mem_toDigits (by decide) (by decide) h

theorem padded_ne_nil (width n : Nat) : padded width n ≠ [] := by
  simp [padded, Nat.toDigits_ne_nil]

theorem padded_append_ne (h : c.isDigit = false) (width n : Nat) (rest cs : List Char) :
    padded width n ++ rest ≠ c :: cs := by
  intro heq
  obtain ⟨hnil, -⟩ | ⟨more, hpadded, -⟩ := List.append_eq_cons_iff.mp heq
  · exact padded_ne_nil width n hnil
  · have hdigit : c.isDigit = true := isDigit_of_mem_padded (hpadded ▸ List.mem_cons_self ..)
    rw [h] at hdigit
    cases hdigit

theorem date_ne_brace (d : DateTime) (rest : List Char) : d.text.toList ≠ '\x7b' :: rest := by
  cases d with
  | date d | time t | moment d t offset =>
    simpa [DateTime.text, Date.text, Time.text] using
      padded_append_ne rfl _ _ _ _

end Toml

namespace Command

/-- What stands before the first equals sign of the text is the key. -/
def Sets (key text : String) : Prop := '=' ∉ key.toList ∧ ∃ value, text = key ++ "=" ++ value

/-- A configured value as a text: a text as it is, and any other value as in a document. -/
def written : Toml.Value → String
  | .string s => s
  | v => .ofList (Toml.writeValue v)

def standIn (d : Toml.DateTime) : String :=
  .ofList (Toml.writeValue (.table [(Project.dateKey, .string d.text)]))

/-- The binding of a key when `texts` are the settings of the call, in their order. -/
inductive Binds (texts : List String) (useEnvironment : Bool) (config : Config)
    (environment : Environment) (key : String) : Option String → Prop
  | set (htexts : texts = before ++ (key ++ "=" ++ value) :: after) (hkey : '=' ∉ key.toList)
    (hlast : ∀ text ∈ after, ¬ Sets key text) :
    Binds texts useEnvironment config environment key (some value)
  | configured (hset : ∀ text ∈ texts, ¬ Sets key text) (hconfig : config.env[key]? = some v) :
    Binds texts useEnvironment config environment key (some (written v))
  | inherited (hset : ∀ text ∈ texts, ¬ Sets key text) (hconfig : config.env[key]? = none)
    (huse : useEnvironment = true) (hvariable : (key.toUTF8, value.toUTF8) ∈ environment) :
    Binds texts useEnvironment config environment key (some value)
  | unbound (hset : ∀ text ∈ texts, ¬ Sets key text) (hconfig : config.env[key]? = none)
    (hvariable : useEnvironment = true → ∀ value : String,
      (key.toUTF8, value.toUTF8) ∉ environment) :
    Binds texts useEnvironment config environment key none

/-- The key is configured to be a date or time, and no text sets it. -/
structure Dated (texts : List String) (config : Config) (key : String) (d : Toml.DateTime) :
    Prop where
  unset : ∀ text ∈ texts, ¬ Sets key text
  configured : config.env[key]? = some (.datetime d)

def Task.switches : Task → List Switch
  | .fill .. => [setSwitch, noEnvSwitch, dryRunSwitch]
  | .check _ => [setSwitch, noEnvSwitch]
  | .plane _ => []

def Task.items (task : Task) (arguments : List String) : List Item :=
  Command.items (helpSwitch :: task.switches)
    ((options [helpSwitch, configSwitch, verboseSwitch] arguments).2.drop 1)

-- ---------------------------------------------------------------------------
-- Settings
-- ---------------------------------------------------------------------------

theorem setting?_append (h : '=' ∉ key.toList) (value : String) :
    setting? (key ++ "=" ++ value) = if key = "" then none else some (key, value) := by
  have hall : ∀ c ∈ key.toList, (!decide (c = '=')) = true := by
    intro c hc
    simpa using ne_of_mem_of_not_mem hc h
  have hspan : (key ++ "=" ++ value).toList.span (· ≠ '=') = (key.toList, '=' :: value.toList) := by
    simp [List.takeWhile_append_of_pos hall, List.dropWhile_append_of_pos hall]
  rw [setting?, hspan]
  cases hkey : key.toList with
  | nil => simp [String.toList_eq_nil_iff.mp hkey]
  | cons c cs =>
    have hne : key ≠ "" := by
      rintro rfl
      cases hkey
    simp [hne, ← hkey]

theorem setting?_of_not_mem (h : '=' ∉ text.toList) : setting? text = none := by
  have hdrop : text.toList.dropWhile (· ≠ '=') = [] := by
    simp only [List.dropWhile_eq_nil_iff, decide_eq_true_eq]
    exact fun c hc => ne_of_mem_of_not_mem hc h
  unfold setting?
  rw [List.span_eq_takeWhile_dropWhile, hdrop]
  cases text.toList.takeWhile (· ≠ '=') <;> rfl

theorem setting?_eq_some : setting? text = some (key, value) ↔
    key ≠ "" ∧ '=' ∉ key.toList ∧ text = key ++ "=" ++ value := by
  constructor
  · intro h
    by_cases hequals : '=' ∈ text.toList
    · obtain ⟨front, back, htext, hfront⟩ := List.eq_append_cons_of_mem hequals
      obtain rfl : text = .ofList front ++ "=" ++ .ofList back := by
        simp [← String.toList_inj, htext]
      rw [setting?_append (by simpa using hfront)] at h
      split at h
      · cases h
      · next hne =>
        cases h
        exact ⟨hne, by simpa using hfront, rfl⟩
    · rw [setting?_of_not_mem hequals] at h
      cases h
  · rintro ⟨hne, hkey, rfl⟩
    simp [setting?_append hkey, hne]

theorem sets_iff (h : setting? text = some (other, value)) : Sets key text ↔ key = other := by
  obtain ⟨hne, hother, rfl⟩ := setting?_eq_some.mp h
  constructor
  · rintro ⟨hkey, value', heq⟩
    rw [heq, setting?_append hkey] at h
    split at h
    · cases h
    · cases h
      rfl
  · rintro rfl
    exact ⟨hother, value, rfl⟩

-- ---------------------------------------------------------------------------
-- The settings of a call
-- ---------------------------------------------------------------------------

theorem ne_of_not_sets {texts : List String} (h : ∀ text ∈ texts, ¬ Sets key text) :
    ∀ e ∈ texts.filterMap setting?, e.1 ≠ key := by
  rintro ⟨other, value⟩ he heq
  obtain ⟨text, htext, hsetting⟩ := List.mem_filterMap.mp he
  exact h text htext ((sets_iff hsetting).mpr heq.symm)

theorem contains_settings {texts : List String} (h : ∀ text ∈ texts, ¬ Sets key text) :
    ((texts.filterMap setting?).map Prod.fst).contains key = false := by
  rw [← Bool.not_eq_true, List.contains_iff_mem, List.mem_map]
  rintro ⟨e, he, heq⟩
  exact ne_of_not_sets h e he heq

theorem getElem?_settings_none {texts : List String} (h : ∀ text ∈ texts, ¬ Sets key text) :
    (Std.ExtTreeMap.ofList (texts.filterMap setting?))[key]? = none :=
  Std.ExtTreeMap.getElem?_ofList_of_contains_eq_false (contains_settings h)

/-- Of several settings of a key the last one counts. -/
theorem getElem?_settings_last {after : List String} (hne : key ≠ "") (hkey : '=' ∉ key.toList)
    (hlast : ∀ text ∈ after, ¬ Sets key text) :
    (Std.ExtTreeMap.ofList ((before ++ (key ++ "=" ++ value) :: after).filterMap setting?))[key]? =
      some value := by
  rw [List.filterMap_append, List.filterMap_cons_some (setting?_eq_some.mpr ⟨hne, hkey, rfl⟩),
    Std.ExtTreeMap.ofList_eq_insertMany_empty, Std.ExtTreeMap.insertMany_append,
    Std.ExtTreeMap.insertMany_cons,
    Std.ExtTreeMap.getElem?_insertMany_list_of_contains_eq_false (contains_settings hlast),
    Std.ExtTreeMap.getElem?_insert_self]

theorem exists_last (key : String) (texts : List String) :
    (∀ text ∈ texts, ¬ Sets key text) ∨ ∃ before value after,
      texts = before ++ (key ++ "=" ++ value) :: after ∧ '=' ∉ key.toList ∧
        ∀ text ∈ after, ¬ Sets key text := by
  induction texts with
  | nil => simp
  | cons text texts ih =>
    obtain hnone | ⟨before, value, after, rfl, hkey, hlast⟩ := ih
    · by_cases hsets : Sets key text
      · obtain ⟨hkey, value, rfl⟩ := hsets
        exact .inr ⟨[], value, texts, rfl, hkey, hnone⟩
      · exact .inl (List.forall_mem_cons.mpr ⟨hsets, hnone⟩)
    · exact .inr ⟨text :: before, value, after, rfl, hkey, hlast⟩

-- ---------------------------------------------------------------------------
-- Configured values
-- ---------------------------------------------------------------------------

theorem written_ne_standIn (d : Toml.DateTime) : written (.datetime d) ≠ standIn d := by
  intro h
  have hchars := congrArg String.toList h
  simp only [written, standIn, Toml.writeValue, String.toList_ofList] at hchars
  exact Toml.date_ne_brace d _ hchars

theorem bindingText_eq (v : Toml.Value) (h : ∀ d, v ≠ .datetime d) :
    Config.bindingText v = written v := by
  cases v with
  | datetime d => exact absurd rfl (h d)
  | _ => rfl

-- ---------------------------------------------------------------------------
-- The layers
-- ---------------------------------------------------------------------------

def layered (texts : List String) (useEnvironment : Bool) (config : Config)
    (environment : Environment) (key : String) : Option String :=
  (Std.ExtTreeMap.ofList (texts.filterMap setting?))[key]?.or ((config.env[key]?.map written).or
    (if useEnvironment then environment.bindings[key]? else none))

theorem exists_binds (texts : List String) (useEnvironment : Bool) (config : Config)
    (environment : Environment) (key : String) :
    ∃ binding, Binds texts useEnvironment config environment key binding := by
  obtain hset | ⟨before, value, after, rfl, hkey, hlast⟩ := exists_last key texts
  · cases hconfig : config.env[key]? with
    | some v => exact ⟨_, .configured hset hconfig⟩
    | none =>
      by_cases hvariable : useEnvironment = true ∧
          ∃ value : String, (key.toUTF8, value.toUTF8) ∈ environment
      · obtain ⟨huse, value, hvalue⟩ := hvariable
        exact ⟨_, .inherited hset hconfig huse hvalue⟩
      · exact ⟨_, .unbound hset hconfig fun huse value hvalue => hvariable ⟨huse, value, hvalue⟩⟩
  · exact ⟨_, .set rfl hkey hlast⟩

section
variable {texts : List String} {config : Config} {environment : Environment}
  (haccepted : ∀ text ∈ texts, (setting? text).isSome)
  (hnames : (environment.map Prod.fst).Nodup)
include haccepted

theorem getElem?_settings_of_accepted (htexts : texts = before ++ (key ++ "=" ++ value) :: after)
    (hkey : '=' ∉ key.toList) (hlast : ∀ text ∈ after, ¬ Sets key text) :
    (Std.ExtTreeMap.ofList (texts.filterMap setting?))[key]? = some value := by
  have hsetting := haccepted _ (htexts ▸ List.mem_append_right _ (List.mem_cons_self ..))
  rw [setting?_append hkey] at hsetting
  split at hsetting
  · cases hsetting
  · next hne => rw [htexts, getElem?_settings_last hne hkey hlast]

include hnames

theorem layered_of_binds (h : Binds texts useEnvironment config environment key binding) :
    layered texts useEnvironment config environment key = binding := by
  unfold layered
  cases h with
  | set htexts hkey hlast =>
    rw [getElem?_settings_of_accepted haccepted htexts hkey hlast]
    rfl
  | configured hset hconfig =>
    rw [getElem?_settings_none hset, hconfig]
    rfl
  | inherited hset hconfig huse hvariable =>
    rw [getElem?_settings_none hset, hconfig, if_pos huse]
    exact (Environment.getElem?_bindings hnames).mpr hvariable
  | unbound hset hconfig hvariable =>
    rw [getElem?_settings_none hset, hconfig]
    simp only [Option.map_none, Option.none_or, ite_eq_right_iff]
    intro huse
    exact Option.eq_none_iff_forall_ne_some.mpr fun value hvalue =>
      hvariable huse value ((Environment.getElem?_bindings hnames).mp hvalue)

theorem binds_iff : Binds texts useEnvironment config environment key binding ↔
    layered texts useEnvironment config environment key = binding := by
  refine ⟨layered_of_binds haccepted hnames, ?_⟩
  rintro rfl
  obtain ⟨binding, hbinds⟩ := exists_binds texts useEnvironment config environment key
  rwa [layered_of_binds haccepted hnames hbinds]

end

section
variable {f : Filling} {config : Config} {environment : Environment} {key : String}

theorem getElem?_layers : ((f.deployment config environment).merged f.arguments)[key]? =
    f.arguments[key]?.or ((config.env[key]?.map Config.bindingText).or
      (if f.useEnvironment then environment.bindings[key]? else none)) := by
  cases h : f.useEnvironment <;>
    simp [Filling.deployment, Deployment.merged, Deployment.ofConfig, Config.ambient,
      Config.withInheritEnvironment, Config.envBindings, h, Std.ExtTreeMap.getElem?_union,
      Std.ExtTreeMap.getElem?_map]

variable {template : String} {found : List Item}

theorem getElem?_of_dated (h : Dated (values setSwitch found) config key d) :
    (((Filling.of template found).deployment config environment).merged
      (Filling.of template found).arguments)[key]? = some (standIn d) := by
  rw [getElem?_layers, Filling.arguments, Filling.of, getElem?_settings_none h.unset, h.configured]
  rfl

theorem getElem?_eq_layered (haccepted : ∀ text ∈ values setSwitch found, (setting? text).isSome) :
    (((Filling.of template found).deployment config environment).merged
        (Filling.of template found).arguments)[key]? =
      layered (values setSwitch found) (!given noEnvSwitch found) config environment key ↔
    ∀ d, ¬ Dated (values setSwitch found) config key d := by
  by_cases hdated : ∃ d, Dated (values setSwitch found) config key d
  · refine iff_of_false ?_ (by simpa using hdated)
    obtain ⟨d, hd⟩ := hdated
    rw [getElem?_of_dated hd, layered, getElem?_settings_none hd.unset, hd.configured]
    simpa using (written_ne_standIn d).symm
  · refine iff_of_true ?_ (by simpa using hdated)
    rw [getElem?_layers]
    obtain hset | ⟨before, value, after, htexts, hkey, hlast⟩ :=
      exists_last key (values setSwitch found)
    · have hwritten : config.env[key]?.map Config.bindingText = config.env[key]?.map written := by
        refine Option.map_congr fun v hv => bindingText_eq v ?_
        rintro d rfl
        exact hdated ⟨d, hset, hv⟩
      rw [hwritten]
      rfl
    · have hvalue := getElem?_settings_of_accepted haccepted htexts hkey hlast
      rw [layered, Filling.arguments, Filling.of, hvalue]
      rfl

end

-- ---------------------------------------------------------------------------
-- The options of a call
-- ---------------------------------------------------------------------------

theorem checkItem_of_check (h : check word before found = .ok ()) (hitem : item ∈ found) :
    ∃ before, checkItem word before item = .ok () := by
  induction found generalizing before with
  | nil => cases hitem
  | cons first rest ih =>
    obtain ⟨⟨⟩, hfirst, hrest⟩ := bind_eq_ok.mp h
    obtain rfl | hitem := List.mem_cons.mp hitem
    · exact ⟨_, hfirst⟩
    · exact ih hrest hitem

theorem accepted_of_checkItem
    (h : checkItem word before (.option setSwitch (some text)) = .ok ()) :
    (setting? text).isSome := by
  by_contra hnot
  simp [checkItem, setSwitch, helpSwitch, Form.accepts, hnot] at h

theorem option_of_mem_values (h : text ∈ values s found) : .option s (some text) ∈ found := by
  obtain ⟨item, hitem, hvalue⟩ := List.mem_filterMap.mp h
  split at hvalue
  · split at hvalue
    · next heq =>
      rwa [← heq, ← hvalue]
    · cases hvalue
  · cases hvalue

theorem taskItems_eq_ok (h : taskItems known form arguments = .ok (word, found)) :
    found = items (helpSwitch :: known) arguments ∧
      ∀ text ∈ values setSwitch found, (setting? text).isSome := by
  obtain ⟨⟨⟩, hcheck, hwords⟩ := bind_eq_ok.mp h
  split at hwords
  · cases hwords
    refine ⟨rfl, fun text htext => ?_⟩
    obtain ⟨before, hitem⟩ := checkItem_of_check hcheck (option_of_mem_values htext)
    exact accepted_of_checkItem hitem
  · cases hwords

theorem filling_of_task (hread : Task.read name arguments = .ok task)
    (hf : task.filling? = some f) :
    f = .of f.template (items (helpSwitch :: task.switches) arguments) ∧
      ∀ text ∈ values setSwitch (items (helpSwitch :: task.switches) arguments),
        (setting? text).isSome := by
  unfold Task.read at hread
  split at hread
  case h_1 | h_2 =>
    obtain ⟨⟨template, found⟩, hitems, ⟨⟩⟩ := bind_eq_ok.mp hread
    cases hf
    obtain ⟨rfl, haccepted⟩ := taskItems_eq_ok hitems
    exact ⟨rfl, haccepted⟩
  case h_3 =>
    obtain ⟨_, -, ⟨⟩⟩ := bind_eq_ok.mp hread
    cases hf
  case h_4 | h_5 => cases hread

theorem filling_of_read (hread : Invocation.read arguments = .ok i)
    (hf : i.task.filling? = some f) :
    f = .of f.template (i.task.items arguments) ∧
      ∀ text ∈ values setSwitch (i.task.items arguments), (setting? text).isSome := by
  obtain ⟨⟨⟩, -, hread⟩ := bind_eq_ok.mp hread
  unfold Task.items
  split at hread
  · cases hread
  · next hrest =>
    obtain ⟨task, htask, ⟨⟩⟩ := bind_eq_ok.mp hread
    rw [hrest]
    exact filling_of_task htask hf

-- ---------------------------------------------------------------------------
-- Precedence
-- ---------------------------------------------------------------------------

/-- A text is a setting if it has an equals sign that is not its first character, and the first one
ends its key. With settings only, what is filled or checked has the bindings that the layers give,
except where a date or time is configured by itself: its stand-in is bound then. And what a call has
filled or checked has settings only. -/
theorem binding_precedence (config : Config) {environment : Environment}
    (hnames : (environment.map Prod.fst).Nodup) :
    (∀ text key value, setting? text = some (key, value) ↔
      key ≠ "" ∧ '=' ∉ key.toList ∧ text = key ++ "=" ++ value) ∧
    (∀ (template : String) (found : List Item),
      (∀ text ∈ values setSwitch found, (setting? text).isSome) → ∀ key binding,
      (((Filling.of template found).deployment config environment).merged
          (Filling.of template found).arguments)[key]? = binding →
        (Binds (values setSwitch found) (!given noEnvSwitch found) config environment key binding ↔
          ∀ d, ¬ Dated (values setSwitch found) config key d) ∧
        ∀ d, Dated (values setSwitch found) config key d → binding = some (standIn d)) ∧
    ∀ arguments i f, Invocation.read arguments = .ok i → i.task.filling? = some f →
      f = .of f.template (i.task.items arguments) ∧
        ∀ text ∈ values setSwitch (i.task.items arguments), (setting? text).isSome := by
  refine ⟨fun _ _ _ => setting?_eq_some, ?_, fun _ _ _ => filling_of_read⟩
  rintro template found haccepted key _ rfl
  refine ⟨?_, fun d hd => getElem?_of_dated hd⟩
  rw [binds_iff haccepted hnames, eq_comm]
  exact getElem?_eq_layered haccepted

theorem binding_precedence_repeated :
    ∃ (environment : Environment) (config : Config) (d : Toml.DateTime) (f : Filling),
      environment = [("who".toUTF8, "w".toUTF8), ("home".toUTF8, "h".toUTF8)] ∧
      config.env["start"]? = some (.datetime d) ∧
      Invocation.read ["check", "job", "-s", "who=x", "-s", "who=y=z"] =
        .ok ⟨none, false, .check f⟩ ∧
      Binds ["who=x", "who=y=z"] true config environment "who" (some "y=z") ∧
      Binds ["who=x", "who=y=z"] true config environment "home" (some "h") ∧
      ((f.deployment config environment).merged f.arguments)["start"]? = some (standIn d) := by
  let environment : Environment := [("who".toUTF8, "w".toUTF8), ("home".toUTF8, "h".toUTF8)]
  let d : Toml.DateTime := .date ⟨1979, 5, 27⟩
  let config : Config := { Config.default with env := .ofList [("start", Toml.Value.datetime d)] }
  let found : List Item := [.word "job", .option setSwitch (some "who=x"),
    .option setSwitch (some "who=y=z")]
  have hnames : (environment.map Prod.fst).Nodup := by decide +kernel
  have haccepted : ∀ text ∈ values setSwitch found, (setting? text).isSome := by decide +kernel
  obtain ⟨-, hbinds, -⟩ := binding_precedence config hnames
  have hwho := (hbinds "job" found haccepted "who" (some "y=z") (by decide +kernel)).1
  have hhome := (hbinds "job" found haccepted "home" (some "h") (by decide +kernel)).1
  have hstart := (hbinds "job" found haccepted "start" _ rfl).2
  have hunset : ∀ text ∈ values setSwitch found, ¬ Sets "start" text := by
    intro text htext hsets
    have hkeys : ∀ text ∈ values setSwitch found, (setting? text).map Prod.fst = some "who" := by
      decide +kernel
    obtain ⟨⟨_, value⟩, hvalue, rfl⟩ := Option.map_eq_some_iff.mp (hkeys text htext)
    exact absurd ((sets_iff hvalue).mp hsets) (by decide)
  have hconfig : config.env["start"]? = some (.datetime d) := rfl
  refine ⟨environment, config, d, .of "job" found, rfl, hconfig,
    eq_ok_of_toOption (by decide +kernel), hwho.mpr fun d hd => ?_, hhome.mpr fun d hd => ?_,
    hstart d ⟨hunset, hconfig⟩⟩
  · cases hd.configured
  · cases hd.configured

/-- A configured date is not bound as a document writes it. -/
theorem date_not_written : ¬ ∀ (text template : String) (found : List Item) (config : Config)
    (environment : Environment) (key : String) (v : Toml.Value),
    Config.read text = .ok config → config.inheritEnvironment = true →
    (∀ text ∈ values setSwitch found, (setting? text).isSome ∧ ¬ Sets key text) →
    (environment.map Prod.fst).Nodup → config.env[key]? = some v → (∀ s, v ≠ .string s) →
      (((Filling.of template found).deployment config environment).merged
        (Filling.of template found).arguments)[key]? = some (.ofList (Toml.writeValue v)) := by
  intro h
  have hread : (Config.read "[env]\nstart = 1979-05-27\n").toOption.bind (fun config =>
      config.env["start"]?.bind fun
        | .datetime _ => some config.inheritEnvironment
        | _ => none) = some true := by
    decide +kernel
  obtain ⟨config, hconfig, hstart⟩ := Option.bind_eq_some_iff.mp hread
  obtain ⟨v, hv, hdate⟩ := Option.bind_eq_some_iff.mp hstart
  cases v with
  | datetime d =>
    have hbinding := h _ "job" [] config [] "start" (.datetime d) (eq_ok_of_toOption hconfig)
      (Option.some.inj hdate) (by simp [values]) (by simp) hv (by simp)
    have hdated : Dated (values setSwitch []) config "start" d := ⟨by simp [values], hv⟩
    rw [getElem?_of_dated hdated] at hbinding
    exact written_ne_standIn d (Option.some.inj hbinding).symm
  | _ => cases hdate

end Command

end SimSetup
