import Audec.Lib.Scanner
import Audec.PatternLang.Model

namespace Audec.PatternLang

open Machine FloatDebug FloatDecimal Traced

/-- A parser of pattern terms. It consumes ASCII only, so offsets count bytes; its log holds the magnitudes that
    were negated. -/
abbrev Parser := Scanner Char I64 PatternParseError

namespace Parser

open Scanner hiding pure bind

def error {α : Type} (message : String) : Parser α := Scanner.fail (⟨·, message⟩)

def isSpace (c : Char) : Bool := c == ' ' || c == '\t' || c == '\n' || c == '\r'

def skipSpace : Parser Unit := do
  let _ ← takeWhile isSpace
  pure ()

def expect (c : Char) : Parser Unit := do
  let next ← peek
  if next = some c then advance else error s!"expected '{c}'"

def comma : Parser Bool := do
  skipSpace
  let next ← peek
  if next = some ',' then do
    advance
    skipSpace
    pure true
  else pure false

def requireComma : Parser Unit := do
  let found ← comma
  if found then pure () else error "expected ','"

def isIdentStart (c : Char) : Bool := c.isLower

def isIdentRest (c : Char) : Bool := c.isLower || c.isDigit || c == '_' || c == '-'

def identText : Text → Option (Text × Text)
  | [] => none
  | c :: more => if isIdentStart c then some (c :: more.takeWhile isIdentRest, more.dropWhile isIdentRest) else none

def ident : Parser (Option Text) := fun _ text =>
  match identText text with
  | none => Pure.pure (none, text)
  | some (word, more) => Pure.pure (some word, more)

def startsWithDigit (text : Text) : Bool := text.head?.any Char.isDigit

def peekNumber : Parser Bool := do
  let text ← rest
  pure (startsWithDigit text)

def peekSignedInteger : Parser Bool := do
  let text ← rest
  match text with
  | '-' :: more => pure (startsWithDigit more)
  | _ => pure (startsWithDigit text)

def integer : Parser U64 := do
  let digits ← takeWhile Char.isDigit
  if digits = [] then error "expected an integer"
  else if fits : value digits < 0x10000000000000000 then pure ⟨value digits, fits⟩
  else error "integer out of range"

/-- `-magnitude`, which overflows for the least integer. -/
def negate (magnitude : I64) : Parser I64 := do
  observe magnitude
  if magnitude.val = -0x8000000000000000 then fault else pure (I64.wrap (-magnitude.val))

def signedInteger : Parser I64 := do
  let next ← peek
  if next = some '-' then do
    advance
    let magnitude ← integer
    negate (I64.wrap magnitude.val)
  else do
    let magnitude ← integer
    pure (I64.wrap magnitude.val)

def asI32 (x : I64) : I32 := I32.wrap x.val

/-- The digits after a point, if there is a point. -/
def fraction : Parser (Option Text) := do
  let next ← peek
  if next = some '.' then do
    advance
    let digits ← takeWhile Char.isDigit
    pure (some digits)
  else pure none

def number : Parser Float32 := do
  let whole ← takeWhile Char.isDigit
  let fraction ← fraction
  match fraction with
  | none => if whole = [] then error "expected a number" else pure (readDecimal (value whole) 0)
  | some digits =>
    if whole ++ digits = [] then error "number out of range"
    else pure (readDecimal (value (whole ++ digits)) digits.length)

def transformCall (word : Text) : Parser PatternTransform :=
  if word = ['r', 'o', 't'] then do
    let steps ← signedInteger
    pure (.rotate (asI32 steps))
  else if word = ['g', 'a', 'i', 'n'] then do
    let linear ← number
    pure (.gain linear)
  else if word = ['d', 'e', 'g', 'r', 'a', 'd', 'e'] then do
    let probability ← number
    pure (.degrade probability)
  else error s!"unknown transform: {String.ofList word}"

def transform : Parser PatternTransform := do
  let word ← ident
  match word with
  | none => error "expected rot/gain/degrade transform"
  | some word => do
    expect '('
    skipSpace
    let transform ← transformCall word
    skipSpace
    expect ')'
    pure transform

def repeatModifier (step : Step) : Parser Step := do
  advance
  let count ← integer
  if count.asU32 = 0 then error "'*0' is not a repeat" else pure { step with repeats := count.asU32 }

def replicateModifier (step : Step) : Parser Step := do
  advance
  let count ← integer
  if count.asU32 = 0 then error "'!0' is not a replication" else pure { step with replicate := count.asU32 }

def denominator : Parser U32 := do
  let next ← peek
  if next = some '/' then do
    advance
    let denominator ← integer
    pure denominator.asU32
  else pure 1

def widthModifier (step : Step) : Parser Step := do
  advance
  let numerator ← integer
  let denominator ← denominator
  if numerator.asU32 = 0 ∨ denominator = 0 then error "width must be a positive rational"
  else pure { step with width := ⟨numerator.asU32, denominator⟩ }

def probabilityModifier (step : Step) : Parser Step := do
  advance
  let given ← peekNumber
  if given then do
    let probability ← number
    pure { step with probability := some probability }
  else pure { step with probability := some 0.5 }

def velocityModifier (step : Step) : Parser Step := do
  advance
  let velocity ← number
  pure { step with velocity := some velocity }

def modifier (step : Step) : Parser (Option Step) := do
  let next ← peek
  match next with
  | some '*' => some <$> repeatModifier step
  | some '!' => some <$> replicateModifier step
  | some '@' => some <$> widthModifier step
  | some '?' => some <$> probabilityModifier step
  | some '^' => some <$> velocityModifier step
  | _ => pure none

def modifiers : Nat → Step → Parser Step
  | 0, _ => exhausted
  | fuel + 1, step => do
    let modified ← modifier step
    match modified with
    | none => pure step
    | some step => modifiers fuel step

def nameElement : Parser Element := do
  let word ← ident
  let binding := word.getD []
  let next ← peek
  if next = some ':' then do
    advance
    let variant ← integer
    pure (.name binding (some variant.asU32))
  else pure (.name binding none)

inductive Combinator where
  | seq | stack | every | rot | e | fast | slow | swing | gain | degrade

namespace Combinator

def all : List Combinator := [.seq, .stack, .every, .rot, .e, .fast, .slow, .swing, .gain, .degrade]

def word : Combinator → Text
  | .seq => ['s', 'e', 'q']
  | .stack => ['s', 't', 'a', 'c', 'k']
  | .every => ['e', 'v', 'e', 'r', 'y']
  | .rot => ['r', 'o', 't']
  | .e => ['e']
  | .fast => ['f', 'a', 's', 't']
  | .slow => ['s', 'l', 'o', 'w']
  | .swing => ['s', 'w', 'i', 'n', 'g']
  | .gain => ['g', 'a', 'i', 'n']
  | .degrade => ['d', 'e', 'g', 'r', 'a', 'd', 'e']

end Combinator

def callText (text : Text) : Option (Combinator × Text) :=
  match identText text with
  | some (word, '(' :: more) => (Combinator.all.find? (·.word = word)).map (·, '(' :: more)
  | _ => none

/-- A call is a known identifier immediately followed by `(`; anything else is left in place. -/
def callWord : Parser (Option Combinator) := fun _ text =>
  match callText text with
  | none => Pure.pure (none, text)
  | some (combinator, more) => Pure.pure (some combinator, more)

def u32 : Parser U32 := do
  let n ← integer
  pure n.asU32

/-- The optional phase offset of `every`, recognised by its first digit. -/
def everyOffset : Parser U32 := do
  let given ← peekNumber
  if given then do
    let offset ← u32
    requireComma
    pure offset
  else pure 0

def closesSteps : Option Char → Bool
  | none => true
  | some c => c == ']' || c == '>' || c == ')' || c == ','

mutual

/-- Either a combinator call or a mini-notation sequence. -/
def expr : Nat → Parser PatternExpr
  | 0 => exhausted
  | fuel + 1 => do
    let call ← tryCall fuel
    match call with
    | some call => pure call
    | none => do
      let steps ← steps fuel
      if steps.isEmpty then error "expected a pattern" else pure (.seq steps)

def tryCall : Nat → Parser (Option PatternExpr)
  | 0 => exhausted
  | fuel + 1 => do
    let word ← callWord
    match word with
    | none => pure none
    | some word => do
      expect '('
      skipSpace
      let call ← callBody fuel word
      skipSpace
      expect ')'
      pure (some call)

def callBody : Nat → Combinator → Parser PatternExpr
  | 0, _ => exhausted
  | fuel + 1, .seq => expr fuel
  | fuel + 1, .stack => do
    let first ← expr fuel
    let more ← stackMembers fuel
    pure (.stack (first :: more))
  | fuel + 1, .every => do
    let period ← u32
    requireComma
    let offset ← everyOffset
    let transform ← transform
    requireComma
    let inner ← expr fuel
    pure (.every period offset transform inner)
  | fuel + 1, .rot => do
    let steps ← signedInteger
    requireComma
    let inner ← expr fuel
    pure (.rotate (asI32 steps) inner)
  | fuel + 1, .e => do
    let hits ← u32
    requireComma
    let slots ← u32
    skipSpace
    let arguments ← euclidArguments fuel I32.zero none
    match arguments.2 with
    | none => error "e(...) needs an element"
    | some element => pure (.euclid hits slots arguments.1 element)
  | fuel + 1, .fast => do
    let factor ← u32
    requireComma
    let inner ← expr fuel
    pure (.fast factor inner)
  | fuel + 1, .slow => do
    let factor ← u32
    requireComma
    let inner ← expr fuel
    pure (.slow factor inner)
  | fuel + 1, .swing => do
    let amount ← number
    requireComma
    let inner ← expr fuel
    pure (.swing amount inner)
  | fuel + 1, .gain => do
    let linear ← number
    requireComma
    let inner ← expr fuel
    pure (.gain linear inner)
  | fuel + 1, .degrade => do
    let probability ← number
    requireComma
    let inner ← expr fuel
    pure (.degrade probability inner)

/-- The members of a `stack` after the first. -/
def stackMembers : Nat → Parser (List PatternExpr)
  | 0 => exhausted
  | fuel + 1 => do
    let found ← comma
    if found then do
      let member ← expr fuel
      let more ← stackMembers fuel
      pure (member :: more)
    else pure []

/-- The arguments of `e` after the second: a rotation integer may come before the element. -/
def euclidArguments : Nat → I32 → Option Element → Parser (I32 × Option Element)
  | 0, _, _ => exhausted
  | fuel + 1, rotation, found => do
    let another ← comma
    if another then do
      let signed ← peekSignedInteger
      if found.isNone ∧ rotation = I32.zero ∧ signed then do
        let rotation ← signedInteger
        euclidArguments fuel (asI32 rotation) found
      else do
        let found ← element fuel
        euclidArguments fuel rotation (some found)
    else pure (rotation, found)

def steps : Nat → Parser (List Step)
  | 0 => exhausted
  | fuel + 1 => do
    skipSpace
    let next ← peek
    if closesSteps next then pure []
    else do
      let first ← step fuel
      let more ← steps fuel
      pure (first :: more)

def step : Nat → Parser Step
  | 0 => exhausted
  | fuel + 1 => do
    let element ← element fuel
    let text ← rest
    modifiers (text.length + 1) (Step.plain element)

def element : Nat → Parser Element
  | 0 => exhausted
  | fuel + 1 => do
    skipSpace
    let next ← peek
    match next with
    | some '~' => do
      advance
      pure .rest
    | some '[' => do
      advance
      let steps ← steps fuel
      expect ']'
      if steps.isEmpty then error "empty group" else pure (.group steps)
    | some '<' => do
      advance
      let steps ← steps fuel
      expect '>'
      if steps.isEmpty then error "empty alternation" else pure (.alternate steps)
    | next =>
      if next.any isIdentStart then nameElement else error "expected a name, '~', '[', or '<'"

end

def source (fuel : Nat) : Parser PatternExpr := do
  skipSpace
  let expr ← expr fuel
  skipSpace
  let next ← peek
  if next = none then pure expr else error "unexpected trailing input"

end Parser

def parseRun (source : Text) : Run I64 PatternParseError (PatternExpr × Text) :=
  Parser.source (5 * source.length + 6) source.length source

def parse (source : Text) : Outcome PatternParseError PatternExpr :=
  (parseRun source).out.map Prod.fst

end Audec.PatternLang
