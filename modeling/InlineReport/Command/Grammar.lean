import InlineReport.Text.Digit

/-!
# Reading a command line

A command line mixes options with other arguments. A grammar lists the options, and says
what the other arguments are for (`Tail`); `Grammar.read` sorts the arguments out.

* **Long options** may be cut short as long as one option is meant, and may hold their
  value behind an equals sign.
* **Short options** without values may be written together, if all of them are known.
* **Behind two dashes** everything is an argument, and so are negative numbers and what
  begins with a dash but holds a blank. Behind an equals sign the two dashes are no value, but
  the empty one.

What an argument is depends on nothing but itself and the two dashes, so all of them are
classified first (`Grammar.pieces?`); an option that is cut too short spoils the whole line.
-/

namespace InlineReport

/-- What an option does. -/
inductive OptionKind
  /-- It is given or not. -/
  | flag
  /-- It has a value, which has to pass a test. -/
  | value (accepts : Text → Bool)
  /-- It asks for help, and the rest of the line does not matter. -/
  | help
  /-- It asks for the version, and the rest of the line does not matter. -/
  | version

namespace OptionKind

/-- Whether an option has a value. -/
def hasValue : OptionKind → Bool
  | value _ => true
  | _ => false

end OptionKind

/-- An option. -/
structure CommandOption where
  names : List String
  kind : OptionKind

/-- The last of the names of an option. -/
def CommandOption.name (o : CommandOption) : String := o.names.getLast?.getD ""

/-- What the arguments are for that do not belong to options. -/
inductive Tail
  /-- The name of a command, and all that follows. -/
  | command
  /-- At most one argument. -/
  | atMostOne
  /-- All that follows, options or not. -/
  | everything
deriving DecidableEq, Repr

/-- What can be written on a command line. -/
structure Grammar where
  options : List CommandOption
  tail : Tail

/-- What an argument is. -/
inductive Piece
  | argument (s : Text)
  | separator
  /-- An option by one of its names, with what is written behind the name. -/
  | option (raw : Text) (o : CommandOption) (name : Text) (value : Option Text)
  | unknown (s : Text)

namespace Piece

/-- An argument as it was written. -/
def raw : Piece → Text
  | argument s | option s .. | unknown s => s
  | separator => ['-', '-']

/-- Whether an argument looks like an option. -/
def isOption : Piece → Bool
  | option .. | unknown _ => true
  | _ => false

/-- Whether an argument is the two dashes. -/
def isSeparator : Piece → Bool
  | separator => true
  | _ => false

end Piece

namespace Grammar

/-! ### Classifying arguments -/

/-- The options by all of their names. -/
def names (g : Grammar) : List (Text × CommandOption) :=
  g.options.flatMap fun o => o.names.map fun name => (name.toList, o)

/-- Whether an argument is a negative number, perhaps with a newline behind it. -/
def isNegative (s : Text) : Bool :=
  let s := if s.getLast? = some '\n' then s.dropLast else s
  match s with
  | '-' :: s =>
    let whole := s.takeWhile isDigit
    match s.dropWhile isDigit with
    | [] => !whole.isEmpty
    | '.' :: part => !part.isEmpty && part.all isDigit
    | _ => false
  | _ => false

/-- A text cut at its first equals sign. -/
def cutValue (s : Text) : Text × Option Text :=
  match s.dropWhile (· != '=') with
  | [] => (s, none)
  | _ :: value => (s.takeWhile (· != '='), some value)

/-- The options that an argument with a dash may mean, and the values that it gives them. -/
def meanings (g : Grammar) (s : Text) : List Piece :=
  match s with
  | '-' :: '-' :: _ =>
    let (start, value) := cutValue s
    (g.names.filter fun (name, _) => start.isPrefixOf name).map fun (name, o) =>
      .option s o name value
  | _ =>
    g.names.filterMap fun (name, o) =>
      if name = s.take 2 then some (.option s o name (some (s.drop 2)))
      else if s.isPrefixOf name then some (.option s o name none)
      else none

/-- What an argument other than the two dashes is; `none` if it may mean several options. -/
def classify? (g : Grammar) (s : Text) : Option Piece :=
  if s.head? != some '-' then some (.argument s)
  else
    match g.names.lookup s with
    | some o => some (.option s o s none)
    | none =>
      if s.length = 1 then some (.argument s)
      else
        let (name, value) := cutValue s
        match value, g.names.lookup name with
        | some value, some o => some (.option s o name (some value))
        | _, _ =>
          match g.meanings s with
          | [meant] => some meant
          | [] => some (if isNegative s || s.contains ' ' then .argument s else .unknown s)
          | _ => none

/-- What the arguments are; `none` if one of them may mean several options. -/
def pieces? (g : Grammar) : List Text → Option (List Piece)
  | [] => some []
  | s :: args =>
    if s = ['-', '-'] then some (.separator :: args.map .argument)
    else do return (← g.classify? s) :: (← pieces? g args)

/-! ### Sorting them out -/

/-- What is found on a command line, piece by piece. -/
inductive Find
  | option (o : CommandOption) (value : Text)
  | tail (args : List Text)
  | unknown (s : Text)
  /-- An option without the value it needs, or with one that it cannot have. -/
  | misused

/-- The arguments of the tail at the beginning of pieces, and the pieces behind them. The two
dashes belong to a tail that takes everything. -/
def takeTail? (t : Tail) (pieces : List Piece) : Option (List Text × List Piece) :=
  match t, pieces.dropWhile (·.isSeparator) with
  | .everything, _ => some (pieces.map (·.raw), [])
  | .atMostOne, .argument s :: rest => some ([s], rest.dropWhile (·.isSeparator))
  | .atMostOne, rest => some ([], rest)
  | .command, .argument _ :: _ => some (pieces.map (·.raw), [])
  | .command, _ => none

/-- The flags that are written in one argument, of which `o` is the first; `none` if one of
them is unknown. -/
def together? (g : Grammar) (o : CommandOption) : Text → Option (List Find)
  | [] => some [.option o []]
  | c :: s => do
    let next ← g.names.lookup ['-', c]
    return .option o [] :: (← together? g next s)

/-- What an option with a value in the same argument gives. Behind the one letter of a flag
further letters are flags of their own. -/
def withValue (g : Grammar) (o : CommandOption) (name value : Text) : List Find :=
  if o.kind.hasValue then [.option o (if value = ['-', '-'] then [] else value)]
  else if name[1]? = some '-' || value.isEmpty then [.misused]
  else (g.together? o value).getD [.misused]

/-- Sorts out pieces; `isOpen` says whether the tail is still to come. -/
def sort (g : Grammar) : (fuel : Nat) → (isOpen : Bool) → List Piece → List Find
  | 0, _, _ => []
  | fuel + 1, isOpen, pieces =>
    match pieces with
    | .unknown s :: rest => .unknown s :: g.sort fuel isOpen rest
    | .option _ o name (some value) :: rest =>
      g.withValue o name value ++ g.sort fuel isOpen rest
    | .option _ o _ none :: rest =>
      if o.kind.hasValue then
        match rest with
        | .argument value :: rest => .option o value :: g.sort fuel isOpen rest
        | _ => [.misused]
      else .option o [] :: g.sort fuel isOpen rest
    | _ =>
      match (if isOpen then takeTail? g.tail pieces else none) with
      | some (args, rest) =>
        .tail args :: (if rest.isEmpty then [] else g.sort fuel false rest)
      | none =>
        let extra := pieces.takeWhile (!·.isOption)
        let rest := pieces.dropWhile (!·.isOption)
        extra.map (fun p => .unknown p.raw) ++
          (if rest.isEmpty then [] else g.sort fuel isOpen rest)

/-! ### The outcome -/

/-- What a command line comes to. -/
inductive Reading
  | help
  | version
  | misuse
  /-- The options by their names in the order in which they stand, and the tail; it is
  complete if nothing on the line is unknown. -/
  | given (options : List (String × String)) (tail : List Text) (isComplete : Bool)

/-- Takes a find into account. -/
def Reading.add (r : Reading) (f : Find) : Reading :=
  match r, f with
  | .given options tail isComplete, .option o value =>
    match o.kind with
    | .help => .help
    | .version => .version
    | .flag => .given (options ++ [(o.name, "")]) tail isComplete
    | .value accepts =>
      if accepts value then .given (options ++ [(o.name, String.ofList value)]) tail isComplete
      else .misuse
  | .given options _ isComplete, .tail args => .given options args isComplete
  | .given options tail _, .unknown _ => .given options tail false
  | .given .., .misused => .misuse
  | r, _ => r

/-- Reads a command line. -/
def read (g : Grammar) (args : List Text) : Reading :=
  match g.pieces? args with
  | none => .misuse
  | some pieces => (g.sort (pieces.length + 1) true pieces).foldl Reading.add (.given [] [] true)

end Grammar

end InlineReport
