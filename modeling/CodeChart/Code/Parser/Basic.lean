import CodeChart.Code.Token

/-! Readers of token lists. A reader either fails or gives a value and the tokens behind it;
alternatives start again where the first one started. -/
namespace CodeChart.Code

abbrev Reader := StateT (List Token) Option

namespace Reader

def peek : Reader Token := do
  match (← get) with
  | t :: _ => pure t
  | [] => failure

def peekSecond : Reader Token := do
  match (← get) with
  | _ :: t :: _ => pure t
  | _ => failure

def take : Reader Token := do
  match (← get) with
  | t :: rest => set rest; pure t
  | [] => failure

def exactly (t : Token) : Reader Unit := do
  if (← take) = t then pure () else failure

def op (symbol : String) : Reader Unit := exactly (.op symbol)

/-- A reserved word; the line on which it stands. -/
def word (id : String) : Reader Nat := do
  match (← take) with
  | .word w line => if w = id then pure line else failure
  | _ => failure

/-- A name that is not reserved. -/
def name : Reader String := do
  match (← take) with
  | .name id => pure id
  | _ => failure

/-- A word that is special at this place only. -/
def softWord (id : String) : Reader Unit := do
  if (← name) = id then pure () else failure

def nextIsOp (symbol : String) : Reader Bool := do
  match (← get) with
  | .op s :: _ => pure (s = symbol)
  | _ => pure false

def nextIsWord (id : String) : Reader Bool := do
  match (← get) with
  | .word w _ :: _ => pure (w = id)
  | _ => pure false

def maybe (p : Reader α) : Reader (Option α) := (some <$> p) <|> pure none

/-- At most one repetition for each of the given tokens. -/
def atMost : List Token → Reader α → Reader (List α)
  | [], _ => pure []
  | _ :: ts, p => (do
      let a ← p
      let as ← atMost ts p
      pure (a :: as)) <|> pure []

/-- Repetitions of a reader that takes at least one token each time. -/
def many (p : Reader α) : Reader (List α) := do
  atMost (← get) p

def many1 (p : Reader α) : Reader (List α) := do
  let a ← p
  let as ← many p
  pure (a :: as)

def commaList (p : Reader α) : Reader (List α) := do
  let a ← p
  let as ← many (do op ","; p)
  pure (a :: as)

/-- One or more items; also says whether a comma stands behind the last. -/
def commaListWithTail (p : Reader α) : Reader (List α × Bool) := do
  let as ← commaList p
  let tail ← maybe (op ",")
  pure (as, tail.isSome)

/-- A value folded to the left over at most one further part for each of the given tokens. -/
def chain : List Token → (α → Reader α) → α → Reader α
  | [], _, a => pure a
  | _ :: ts, step, a => (do
      let b ← step a
      chain ts step b) <|> pure a

def extend (step : α → Reader α) (a : α) : Reader α := do
  chain (← get) step a

end Reader

end CodeChart.Code
