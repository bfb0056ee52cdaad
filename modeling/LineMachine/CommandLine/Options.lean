/-
**The command line.**

The arguments are options and one file, in any order.  An option may be shortened as long as it
stays unambiguous, and its value follows as the next argument or behind an equals sign.  Two dashes
end the options, and as a value behind an equals sign they leave an option blank.  An argument that
begins with a dash is an option unless it is a negative number, has a space in it or is a single
dash.

Main definitions:

* `LineMachine.Amount` — the number that an option is given, or that it is left blank;
* `LineMachine.Options` — what the arguments ask for;
* `LineMachine.Argument`, `LineMachine.Argument.ofString` — what a single argument is;
* `LineMachine.Options.Problem` — what can be wrong with the arguments;
* `LineMachine.Options.ofArguments` — the options, or a request for help.
-/

import LineMachine.Cell
import LineMachine.Numeral
import LineMachine.Text.Quoted

set_option relaxedAutoImplicit false
set_option autoImplicit false

namespace LineMachine

/-! ### Options -/

/-- The options that have a value. -/
inductive Setting where
  | start | push | maxSteps | test
  deriving DecidableEq, Repr

/-- **The options of the command line.** -/
inductive Flag where
  | help
  | trace
  | setting (s : Setting)
  deriving DecidableEq, Repr

namespace Flag

/-- The spellings of the options, in the order in which they are listed. -/
def spellings : List (String × Flag) :=
  [("-h", help), ("--help", help), ("--start", setting .start), ("--push", setting .push),
   ("--max-steps", setting .maxSteps), ("--test", setting .test), ("--trace", trace)]

/-- The name of an option in messages. -/
def name : Flag → String
  | help => "-h/--help"
  | trace => "--trace"
  | setting .start => "--start"
  | setting .push => "--push"
  | setting .maxSteps => "--max-steps"
  | setting .test => "--test"

end Flag

/-- **The number that an option is given**, unless it is left blank. -/
inductive Amount where
  | blank
  | number (v : Int)
  deriving DecidableEq, Repr

namespace Amount

/-- The number, if there is one. -/
def number? : Amount → Option Int
  | blank => none
  | number v => some v

/-- An amount as it is shown. -/
def render : Amount → String
  | blank => "[]"
  | number v => toString v

@[simp] theorem number?_number (v : Int) : (number v).number? = some v := rfl

end Amount

/-- The values of the options. -/
structure Settings where
  /-- The line to start at. -/
  start : Amount
  /-- The numbers to push before the start, the lowest first. -/
  pushes : List Amount
  /-- The step limit, if there is one. -/
  maxSteps : Option Amount
  /-- The case file, if cases are to be run. -/
  test : Option String
  /-- Whether to log what happens. -/
  trace : Bool
  deriving DecidableEq, Repr

/-- The values when no option is given. -/
def Settings.default : Settings := ⟨.number firstLine, [], none, none, false⟩

/-- **What the arguments ask for.** -/
structure Options extends Settings where
  /-- The file that holds the program. -/
  file : String
  deriving DecidableEq, Repr

/-- What can be wrong with the arguments. -/
inductive Options.Problem where
  | missingValue (s : Setting)
  | notANumber (s : Setting) (text : String)
  | uselessValue (f : Flag) (text : String)
  | ambiguous (text : String) (candidates : List String)
  | missingFile
  | unrecognized (texts : List String)
  deriving DecidableEq, Repr

/-- What is said of a problem. -/
def Options.Problem.message : Options.Problem → String
  | missingValue s => s!"argument {Flag.name (.setting s)}: expected one argument"
  | notANumber s text =>
      s!"argument {Flag.name (.setting s)}: invalid int value: {Text.quoted text}"
  | uselessValue f text => s!"argument {f.name}: ignored explicit argument {Text.quoted text}"
  | ambiguous text candidates =>
      let names := ", ".intercalate candidates
      s!"ambiguous option: {text} could match {names}"
  | missingFile => "the following arguments are required: file"
  | unrecognized texts => "unrecognized arguments: " ++ " ".intercalate texts

/-! ### Single arguments -/

/-- **What a single argument is.** -/
inductive Argument where
  /-- A value or a file. -/
  | plain (text : String)
  /-- The two dashes that end the options. -/
  | dashes
  /-- An option, with the value behind its equals sign. -/
  | flag (f : Flag) (value : Option String)
  /-- The short option for help, with text right behind it or behind its equals sign. -/
  | shortHelp (behind : List Char)
  /-- Something that looks like an option and is none. -/
  | unknown (text : String)
  deriving DecidableEq, Repr

namespace Argument

/-- Whether an argument looks like a negative number: digits of any script behind a dash, with at
most one point that has a digit behind it.  A line feed at the end is overlooked. -/
def looksNegative (cs : List Char) : Bool :=
  match cs with
  | '-' :: body =>
      let body := if body.getLast? = some '\n' then body.dropLast else body
      let whole := body.takeWhile Text.isDecimal
      match body.dropWhile Text.isDecimal with
      | [] => whole != []
      | '.' :: fraction => fraction != [] && fraction.all Text.isDecimal
      | _ => false
  | _ => false

/-- A text up to its first equals sign, and the text behind it if there is one. -/
def splitValue (cs : List Char) : List Char × Option String :=
  match cs.dropWhile (· != '=') with
  | [] => (cs, none)
  | _ :: value => (cs.takeWhile (· != '='), some (String.ofList value))

/-- The options that a long option may be short for. -/
def candidates (stem : List Char) : List (String × Flag) :=
  Flag.spellings.filter (fun entry => stem.isPrefixOf entry.1.toList)

/-- An argument that begins with a dash and is no option. -/
def leftover (text : String) : Argument :=
  if looksNegative text.toList || text.toList.contains ' ' then plain text else unknown text

/-- **What an argument is**, in front of the two dashes that end the options. -/
def ofString (text : String) : Except Options.Problem Argument :=
  match text.toList with
  | '-' :: second :: more =>
      match Flag.spellings.lookup text with
      | some f => .ok (flag f none)
      | none =>
          let (stem, value) := splitValue text.toList
          match value, Flag.spellings.lookup (String.ofList stem) with
          | some v, some f =>
              if second = '-' then .ok (flag f (some v)) else .ok (shortHelp v.toList)
          | _, _ =>
              if second = '-' then
                match candidates stem with
                | [] => .ok (leftover text)
                | [(_, f)] => .ok (flag f value)
                | entries => .error (.ambiguous text (entries.map (·.1)))
              else if second = 'h' then .ok (shortHelp more)
              else .ok (leftover text)
  | _ => .ok (plain text)

/-- What the arguments are. -/
def ofStrings : List String → Except Options.Problem (List Argument)
  | [] => .ok []
  | text :: texts =>
      if text = "--" then .ok (dashes :: texts.map plain)
      else do
        let a ← ofString text
        let rest ← ofStrings texts
        return a :: rest

/-- What stands behind the short option for help and is of no use there, if anything is.  The option
may be repeated letter by letter, and an equals sign has to have something behind it. -/
def uselessBehindHelp? : List Char → Option (List Char)
  | ['h'] => none
  | 'h' :: behind => uselessBehindHelp? behind
  | behind => some behind

end Argument

/-! ### Reading the arguments -/

namespace Options

/-- What has been read of the arguments. -/
structure Draft where
  settings : Settings
  file : Option String
  /-- Arguments that have no meaning, in order. -/
  extras : List String
  deriving DecidableEq, Repr

/-- The amount that is the value of an option.  Two dashes leave it blank. -/
def amount (s : Setting) (text : String) : Except Problem Amount :=
  if text = "--" then .ok .blank
  else
    match Numeral.readLoose? text with
    | some v => .ok (.number v)
    | none => .error (.notANumber s text)

/-- Sets the value of an option.  Of a repeated option the last value counts, except that numbers
to push add up. -/
def Draft.set (d : Draft) (s : Setting) (text : String) : Except Problem Draft :=
  match s with
  | .start => (amount s text).map fun a => { d with settings.start := a }
  | .push => (amount s text).map fun a => { d with settings.pushes := d.settings.pushes ++ [a] }
  | .maxSteps => (amount s text).map fun a => { d with settings.maxSteps := some a }
  | .test => .ok { d with settings.test := if text = "--" then none else some text }

/-- Sets an argument aside that has no meaning. -/
def Draft.extra (d : Draft) (text : String) : Draft := { d with extras := d.extras ++ [text] }

/-- **Reads arguments from left to right**; `none` is a request for help.  The two dashes beside
the file belong to it. -/
def read (d : Draft) : List Argument → Except Problem (Option Draft)
  | [] => .ok (some d)
  | .unknown text :: rest => read (d.extra text) rest
  | .flag .help none :: _ => .ok none
  | .flag .help (some v) :: _ => .error (.uselessValue .help v)
  | .shortHelp behind :: _ =>
      match Argument.uselessBehindHelp? behind with
      | some v => .error (.uselessValue .help (String.ofList v))
      | none => .ok none
  | .flag .trace none :: rest => read { d with settings.trace := true } rest
  | .flag .trace (some v) :: _ => .error (.uselessValue .trace v)
  | .flag (.setting s) (some v) :: rest =>
      match d.set s v with
      | .error p => .error p
      | .ok d => read d rest
  | .flag (.setting s) none :: .plain v :: rest =>
      match d.set s v with
      | .error p => .error p
      | .ok d => read d rest
  | .flag (.setting s) none :: _ => .error (.missingValue s)
  | .plain text :: .dashes :: rest =>
      match d.file with
      | none => read { d with file := some text } rest
      | some _ => read ((d.extra text).extra "--") rest
  | .plain text :: rest =>
      match d.file with
      | none => read { d with file := some text } rest
      | some _ => read (d.extra text) rest
  | .dashes :: .plain text :: rest =>
      match d.file with
      | none => read { d with file := some text } rest
      | some _ => read ((d.extra "--").extra text) rest
  | .dashes :: rest => read (d.extra "--") rest

/-- The options that have been read. -/
def ofDraft (d : Draft) : Except Problem Options :=
  match d.file, d.extras with
  | none, _ => .error .missingFile
  | some file, [] => .ok { d.settings with file := file }
  | some _, texts => .error (.unrecognized texts)

/-- **What the arguments ask for**; `none` is a request for help. -/
def ofArguments (texts : List String) : Except Problem (Option Options) := do
  match ← read ⟨.default, none, []⟩ (← Argument.ofStrings texts) with
  | none => return none
  | some d => return some (← ofDraft d)

end Options

end LineMachine
