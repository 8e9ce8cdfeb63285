import CodeChart.Text.Raw

/-! Command-line arguments. Words are sorted into options and plain arguments first; then they are
taken from left to right. What they ask for comes as a list of events, so that a request for help
counts only if nothing before it has failed. -/
namespace CodeChart.CommandLine

open Text (Sign Raw)

inductive Switch where
  | help
  | field
  | inner
  | output
  | noSimplify
  | align
  deriving DecidableEq, Repr

def Switch.all : List Switch := [.help, .field, .inner, .output, .noSimplify, .align]

def Switch.takesValue : Switch → Bool
  | .field | .output => true
  | _ => false

def Switch.letter? : Switch → Option Char
  | .help => some 'h'
  | .field => some 'f'
  | .inner => some 'i'
  | .output => some 'o'
  | .noSimplify | .align => none

def Switch.word : Switch → String
  | .help => "--help"
  | .field => "--field"
  | .inner => "--inner"
  | .output => "--output"
  | .noSimplify => "--no-simplify"
  | .align => "--conds-align"

def ofLetter? (c : Sign) : Option Switch :=
  Switch.all.find? fun s => s.letter?.map Sign.char == some c

structure Attached where
  /-- Written with one dash. -/
  short : Bool
  /-- Divided from the switch by an equals sign. -/
  divided : Bool
  value : Raw
  deriving DecidableEq, Repr

inductive Word where
  | plain (text : Raw)
  | switch (of : Switch) (value : Option Attached)
  /-- It looks like an option, but there is none of that name. -/
  | unknown
  /-- The end of all options. -/
  | divider
  deriving DecidableEq, Repr

/-- A dash and a number without exponent; one line break may follow it. -/
def isNegativeNumber (word : Raw) : Bool :=
  match word with
  | .char '-' :: rest =>
    let number := if rest.getLast? = some (.char '\n') then rest.dropLast else rest
    let whole := number.takeWhile Sign.isDecimal
    match number.dropWhile Sign.isDecimal with
    | [] => !whole.isEmpty
    | .char '.' :: fraction => !fraction.isEmpty && fraction.all Sign.isDecimal
    | _ => false
  | _ => false

def splitAtEquals (word : Raw) : Raw × Option Raw :=
  match word.dropWhile (· != .char '=') with
  | _ :: rest => (word.takeWhile (· != .char '='), some rest)
  | [] => (word, none)

/-- A word that begins with two dashes: any unambiguous beginning of a switch will do. -/
def longWord (word : Raw) : Except Unit (Option Word) :=
  let (name, value) := splitAtEquals word
  let attached := value.map fun v => ⟨false, true, v⟩
  match Switch.all.find? fun s => Raw.ofText s.word = name with
  | some s => pure (some (.switch s attached))
  | none =>
    match Switch.all.filter fun s => name.isPrefixOf (Raw.ofText s.word) with
    | [s] => pure (some (.switch s attached))
    | [] => pure none
    | _ => throw ()

/-- A word that begins with one dash: a letter, maybe followed by a value or more letters. -/
def shortWord (c : Sign) (rest : Raw) : Option Word := do
  let s ← ofLetter? c
  return match rest with
    | [] => .switch s none
    | .char '=' :: value => .switch s (some ⟨true, true, value⟩)
    | value => .switch s (some ⟨true, false, value⟩)

/-- The option that a word is, if it is one; fails if it could be the beginning of several. -/
def findWord (word : Raw) : Except Unit (Option Word) :=
  match word with
  | .char '-' :: .char '-' :: _ => longWord word
  | .char '-' :: c :: rest => pure (shortWord c rest)
  | _ => pure (some (.plain word))

def sortWord (word : Raw) : Except Unit Word := do
  let other := if isNegativeNumber word || word.contains (.char ' ') then .plain word else .unknown
  return (← findWord word).getD other

def dividerWord : Raw := Raw.ofText "--"

def sortWords : List Raw → Except Unit (List Word)
  | [] => pure []
  | word :: rest =>
    if word = dividerWord then pure (.divider :: rest.map .plain)
    else do
      let w ← sortWord word
      return w :: (← sortWords rest)

inductive Event where
  | help
  | field (value : Raw)
  | inner
  | output (value : Raw)
  | noSimplify
  | align
  | codeFile (name : Raw)
  | fail
  deriving DecidableEq, Repr

def Switch.event (s : Switch) (value : Raw) : Event :=
  match s with
  | .help => .help
  | .field => .field value
  | .inner => .inner
  | .output => .output value
  | .noSimplify => .noSimplify
  | .align => .align

inductive Ending where
  | done
  /-- A last switch without an attached value. -/
  | switch (of : Switch)
  /-- Letters that are no switch. -/
  | unknown
  deriving DecidableEq, Repr

/-- The events of a switch with an attached value. A switch that takes no value may be followed by
further letters; nothing else may be attached to it. -/
def unbundle (s : Switch) (short divided : Bool) : Raw → Option (List Event × Ending)
  | [] => if s.takesValue then some ([s.event []], .done) else none
  | c :: rest =>
    if s.takesValue then some ([s.event (c :: rest)], .done)
    else if !short || divided || c == .char '-' then none
    else
      match ofLetter? c with
      | none => some ([s.event []], .unknown)
      | some t =>
        match rest with
        | [] => some ([s.event []], .switch t)
        | .char '=' :: value => do
          let (events, ending) ← unbundle t true true value
          return (s.event [] :: events, ending)
        | d :: more => do
          let (events, ending) ← unbundle t true false (d :: more)
          return (s.event [] :: events, ending)
termination_by cs => cs.length

/-- Where the code file is: still to come, the word just taken, or further back. -/
inductive CodeFile where
  | wanted
  | justTaken
  | taken
  deriving DecidableEq, Repr

def CodeFile.moveOn : CodeFile → CodeFile
  | .wanted => .wanted
  | .justTaken | .taken => .taken

/-- Takes the words in order. `extra` says that there was a word too many, and `pending` holds a
switch that waits for its value, with the events of the letters before it. -/
def takeWords (code : CodeFile) (extra : Bool) (pending : Option (List Event × Switch)) :
    List Word → List Event
  | [] => if pending.isSome || code = .wanted || extra then [.fail] else []
  | word :: rest =>
    match pending, word with
    | some (events, s), .plain value =>
      events ++ s.event value :: takeWords code.moveOn extra none rest
    | some _, _ => [.fail]
    | none, .plain text =>
      match code with
      | .wanted => .codeFile text :: takeWords .justTaken extra none rest
      | _ => takeWords code.moveOn true none rest
    | none, .divider =>
      match code with
      | .wanted => takeWords .wanted extra none rest
      | .justTaken => takeWords .taken extra none rest
      | .taken => takeWords .taken true none rest
    | none, .unknown => takeWords code.moveOn true none rest
    | none, .switch s none =>
      if s.takesValue then takeWords code.moveOn extra (some ([], s)) rest
      else s.event [] :: takeWords code.moveOn extra none rest
    | none, .switch s (some a) =>
      match unbundle s a.short a.divided a.value with
      | none => [.fail]
      | some (events, .done) => events ++ takeWords code.moveOn extra none rest
      | some (events, .unknown) => events ++ takeWords code.moveOn true none rest
      | some (events, .switch t) =>
        if t.takesValue then takeWords code.moveOn extra (some (events, t)) rest
        else events ++ t.event [] :: takeWords code.moveOn extra none rest

def eventsOf (arguments : List Raw) : List Event :=
  match sortWords arguments with
  | .error _ => [.fail]
  | .ok words => takeWords .wanted false none words

end CodeChart.CommandLine
