/-!
# Arguments of a command

Arguments are words and options. An option has a long name after two hyphens and may have a letter
after one; letters may share a hyphen. The value of an option follows it as the next argument, after
an equals sign, or directly after its letter. After an argument of two hyphens there are only words.

`items` says what the arguments are; `check` goes through them from left to right and stops at the
first that is out of place.
-/

namespace SimSetup.Command

inductive Form
  | any
  /-- A path is not empty. -/
  | path
  /-- A key, an equals sign and a value. -/
  | setting
  deriving DecidableEq, Repr

/-- The text before the first equals sign, which is not empty, and the text after it. -/
def setting? (text : String) : Option (String × String) :=
  match text.toList.span (· ≠ '=') with
  | ([], _) | (_, []) => none
  | (key, _ :: value) => some (.ofList key, .ofList value)

def Form.accepts : Form → String → Bool
  | any, _ => true
  | path, text => text ≠ ""
  | setting, text => (setting? text).isSome

structure Switch where
  long : String
  short : Option Char
  /-- The form of its value, if it has one. -/
  value : Option Form
  repeatable : Bool
  deriving DecidableEq, Repr

inductive Misuse
  | unknownOption (text : String)
  | valueMissing (option : String)
  | valueUnexpected (option : String)
  | repeated (option : String)
  /-- A word or the value of an option that has another form. -/
  | malformed (text : String)
  | wordUnexpected (text : String)
  | wordMissing
  | commandMissing
  | commandUnknown (name : String)
  deriving DecidableEq, Repr

inductive Item
  | option (switch : Switch) (value : Option String)
  | word (text : String)
  | misuse (cause : Misuse)
  deriving DecidableEq, Repr

inductive Stop
  | help
  | misuse (cause : Misuse)
  deriving DecidableEq, Repr

/-- A single hyphen is a word. -/
def isOption (argument : String) : Bool :=
  match argument.toList with
  | '-' :: _ :: _ => true
  | _ => false

structure Reading where
  items : List Item
  waiting : Option Switch

def Reading.misuse (cause : Misuse) : Reading := ⟨[.misuse cause], none⟩

def readLong (known : List Switch) (argument : List Char) : Reading :=
  let (name, value) := argument.span (· ≠ '=')
  match known.find? (·.long.toList = name), value with
  | none, _ => .misuse (.unknownOption (.ofList name))
  | some s, [] => if s.value.isSome then ⟨[], some s⟩ else ⟨[.option s none], none⟩
  | some s, _ :: value =>
    if s.value.isSome then ⟨[.option s (some (.ofList value))], none⟩
    else .misuse (.valueUnexpected s.long)

def readShort (known : List Switch) : List Char → Reading
  | [] => ⟨[], none⟩
  | c :: rest =>
    match known.find? (·.short = some c) with
    | none => .misuse (.unknownOption (.singleton c))
    | some s =>
      if s.value.isNone then
        let more := readShort known rest
        ⟨.option s none :: more.items, more.waiting⟩
      else match rest with
        | [] => ⟨[], some s⟩
        | '=' :: value | value => ⟨[.option s (some (.ofList value))], none⟩

def readOption (known : List Switch) (argument : String) : Reading :=
  match argument.toList with
  | '-' :: '-' :: name => readLong known name
  | _ :: letters => readShort known letters
  | [] => ⟨[], none⟩

/-- The options before the first word or the two hyphens, and the arguments from there on. -/
def options (known : List Switch) : List String → List Item × List String
  | [] => ([], [])
  | argument :: rest =>
    if isOption argument && argument ≠ "--" then
      let reading := readOption known argument
      match reading.waiting, rest with
      | none, rest =>
        let (more, rest) := options known rest
        (reading.items ++ more, rest)
      | some s, [] => (reading.items ++ [.misuse (.valueMissing s.long)], [])
      | some s, value :: rest =>
        if isOption value then (reading.items ++ [.misuse (.valueMissing s.long)], [])
        else
          let (more, rest) := options known rest
          (reading.items ++ .option s (some value) :: more, rest)
    else ([], argument :: rest)

theorem length_options_le (known : List Switch) (arguments : List String) :
    (options known arguments).2.length ≤ arguments.length := by
  fun_induction options known arguments <;> simp_all <;> omega

theorem length_lt_of_options_eq {known : List Switch} {arguments rest : List String}
    {found : List Item} {word : String} (h : options known arguments = (found, word :: rest)) :
    rest.length < arguments.length := by
  have hle := length_options_le known arguments
  rw [h] at hle
  exact hle

def items (known : List Switch) (arguments : List String) : List Item :=
  match h : options known arguments with
  | (found, []) => found
  | (found, word :: rest) =>
    if word = "--" then found ++ rest.map .word
    else found ++ .word word :: items known rest
termination_by arguments.length
decreasing_by exact length_lt_of_options_eq h

def helpSwitch : Switch := ⟨"help", some 'h', none, true⟩

/-- What one item does to the command, given the items before it. A command takes at most one word.
-/
def checkItem (word : Option Form) (before : List Item) : Item → Except Stop Unit
  | .misuse cause => .error (.misuse cause)
  | .word text =>
    match word with
    | none => .error (.misuse (.wordUnexpected text))
    | some form =>
      if before.any (· matches .word _) then .error (.misuse (.wordUnexpected text))
      else if form.accepts text then .ok ()
      else .error (.misuse (.malformed text))
  | .option s value =>
    if s = helpSwitch then .error .help
    else if !s.repeatable && before.any (fun | .option t _ => t = s | _ => false) then
      .error (.misuse (.repeated s.long))
    else match s.value, value with
      | some form, some text =>
        if form.accepts text then .ok () else .error (.misuse (.malformed text))
      | _, _ => .ok ()

def check (word : Option Form) (before : List Item) : List Item → Except Stop Unit
  | [] => .ok ()
  | item :: rest => do
    checkItem word before item
    check word (item :: before) rest

/-! ## What was given -/

def given (s : Switch) (found : List Item) : Bool :=
  found.any fun | .option t _ => t = s | _ => false

def values (s : Switch) (found : List Item) : List String :=
  found.filterMap fun | .option t value => if t = s then value else none | _ => none

def words (found : List Item) : List String :=
  found.filterMap fun | .word text => some text | _ => none

end SimSetup.Command
