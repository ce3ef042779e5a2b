import AsmVariants.Text.Basic

/-!
# `AsmVariants.CommandLine.Item`: the items of a command line

Arguments are read from left to right into items. An option has a long name, as in `--name`, or
a short one, as in `-n`, and some options take a value:

* The value of a long name stands behind an equals sign or is the next argument.
* The value of a short name stands directly behind it, with or without an equals sign, or is the
  next argument.
* Short names that take no value may be put together, as in `-vc`; the last of them may take one.
* A value that is the next argument does not begin with a hyphen, unless it is a hyphen alone.

All other arguments are positional: those that do not begin with a hyphen, a hyphen alone, and
everything behind the argument `--`.
-/

set_option autoImplicit false

namespace AsmVariants.CommandLine

/-- The options that a program knows. -/
structure Options (κ : Type) where
  long? : Text → Option κ
  short? : Char → Option κ
  takesValue : κ → Bool

/-- An item of a command line. -/
inductive Item (κ : Type) where
  | flag (key : κ)
  | option (key : κ) (value : Text)
  /-- An argument that belongs to no option. -/
  | positional (value : Text)
  /-- An argument that cannot be read. -/
  | malformed
  deriving DecidableEq

/-- What one argument holds: items, and maybe an option whose value is the next argument. -/
abbrev Reading (κ : Type) := List (Item κ) × Option κ

/-- A value behind a short name, without the equals sign that may introduce it. -/
def dropEquals (t : Text) : Text := if t.head? = some '=' then t.tail else t

/-- Whether an argument can be positional, or the value of the option before it. -/
def isPlain (argument : Text) : Bool := argument.head? != some '-' || argument == ['-']

namespace Options

variable {κ : Type} (options : Options κ)

/-- Reads short names that stand together. -/
def cluster : Text → Reading κ
  | [] => ([], none)
  | c :: rest =>
    match options.short? c with
    | none => ([.malformed], none)
    | some key =>
      if options.takesValue key then
        if rest = [] then ([], some key) else ([.option key (dropEquals rest)], none)
      else
        let (items, pending) := cluster rest
        (.flag key :: items, pending)

/-- Reads a long name and the value behind its equals sign. -/
def longName (t : Text) : Reading κ :=
  match options.long? (t.takeWhile (· != '=')), t.dropWhile (· != '=') with
  | none, _ => ([.malformed], none)
  | some key, [] => if options.takesValue key then ([], some key) else ([.flag key], none)
  | some key, _ :: value =>
    if options.takesValue key then ([.option key value], none) else ([.malformed], none)

/-- Reads one argument that is no value of an option before it. -/
def argument (t : Text) : Reading κ :=
  if isPlain t then ([.positional t], none)
  else
    match t with
    | '-' :: '-' :: name => options.longName name
    | _ => options.cluster t.tail

/-- The items of a command line, when an option may still wait for its value. -/
def itemsFrom : Option κ → List Text → List (Item κ)
  | none, [] => []
  | some _, [] => [.malformed]
  | some key, value :: rest =>
    if isPlain value then .option key value :: itemsFrom none rest else [.malformed]
  | none, first :: rest =>
    if first = ['-', '-'] then rest.map .positional
    else
      let (items, pending) := options.argument first
      items ++ itemsFrom pending rest

/-- The items of a command line. -/
def items (arguments : List Text) : List (Item κ) := options.itemsFrom none arguments

end Options

/-- Why a command line asks for no work. -/
inductive Refusal where
  | help
  | version
  /-- It is not well formed. -/
  | usage
  deriving DecidableEq

end AsmVariants.CommandLine
