import Audec.Lib.FloatDebug
import Audec.Lib.Machine

namespace Audec.PatternLang

open Machine FloatDebug

/-- Exact width as a fraction of the parent extent. -/
structure Ratio where
  numerator : U32
  denominator : U32
  deriving DecidableEq

namespace Ratio

def one : Ratio := ⟨1, 1⟩

end Ratio

/-- One step of a sequence of elements; `repeats` is what `*` sets and `replicate` what `!` sets. -/
structure StepOf (element : Type) where
  element : element
  width : Ratio
  replicate : U32
  repeats : U32
  probability : Option Float32
  velocity : Option Float32

inductive Element where
  | rest
  | name (binding : Text) (variant : Option U32)
  | group (steps : List (StepOf Element))
  | alternate (steps : List (StepOf Element))

abbrev Step := StepOf Element

namespace Step

def plain (element : Element) : Step where
  element := element
  width := Ratio.one
  replicate := 1
  repeats := 1
  probability := none
  velocity := none

end Step

/-- Transforms applicable under `every`. -/
inductive PatternTransform where
  | rotate (steps : I32)
  | gain (linear : Float32)
  | degrade (probability : Float32)

inductive PatternExpr where
  | seq (steps : List Step)
  | stack (members : List PatternExpr)
  | every (period offset : U32) (transform : PatternTransform) (inner : PatternExpr)
  | rotate (steps : I32) (inner : PatternExpr)
  | euclid (hits slots : U32) (rotation : I32) (element : Element)
  | fast (factor : U32) (inner : PatternExpr)
  | slow (factor : U32) (inner : PatternExpr)
  | swing (amount : Float32) (inner : PatternExpr)
  | gain (linear : Float32) (inner : PatternExpr)
  | degrade (probability : Float32) (inner : PatternExpr)

structure PatternParseError where
  /-- Offset into the source text. -/
  offset : Nat
  message : String

end Audec.PatternLang

namespace Audec.PatternLang

open Machine FloatDebug

/-- What stands between the arguments of a call. -/
def separator : Text := [',', ' ']

namespace Print

def natural (n : U32) : Text := Nat.toDigits 10 n.val

def integer (n : I32) : Text := (if n.val < 0 then ['-'] else []) ++ Nat.toDigits 10 n.val.natAbs

end Print

variable (lowest : Float32)

def PatternTransform.print : PatternTransform → Text
  | .rotate steps => ['r', 'o', 't', '('] ++ Print.integer steps ++ [')']
  | .gain linear => ['g', 'a', 'i', 'n', '('] ++ debug lowest linear ++ [')']
  | .degrade probability => ['d', 'e', 'g', 'r', 'a', 'd', 'e', '('] ++ debug lowest probability ++ [')']

namespace Step

section

variable (step : Step)

def printRepeats : Text := if 1 < step.repeats.val then '*' :: Print.natural step.repeats else []

def printReplicate : Text := if 1 < step.replicate.val then '!' :: Print.natural step.replicate else []

def printWidth : Text :=
  if step.width = Ratio.one then []
  else if step.width.denominator = 1 then '@' :: Print.natural step.width.numerator
  else '@' :: (Print.natural step.width.numerator ++ '/' :: Print.natural step.width.denominator)

def printProbability : Text :=
  match step.probability with
  | none => []
  | some probability => '?' :: debug lowest probability

def printVelocity : Text :=
  match step.velocity with
  | none => []
  | some velocity => '^' :: debug lowest velocity

def printModifiers : Text :=
  step.printRepeats ++ (step.printReplicate ++ (step.printWidth ++ (step.printProbability lowest ++ step.printVelocity lowest)))

end

end Step

mutual

def printElement : Element → Text
  | .rest => ['~']
  | .name binding none => binding
  | .name binding (some variant) => binding ++ ':' :: Print.natural variant
  | .group steps => '[' :: (printSteps 0 steps ++ [']'])
  | .alternate steps => '<' :: (printSteps 0 steps ++ ['>'])

def printSteps (index : Nat) : List (StepOf Element) → Text
  | [] => []
  | step :: more => (if 0 < index then [' '] else []) ++ (printStep step ++ printSteps (index + 1) more)

def printStep : StepOf Element → Text
  | ⟨element, width, replicate, repeats, probability, velocity⟩ =>
    printElement element ++ Step.printModifiers lowest ⟨element, width, replicate, repeats, probability, velocity⟩

end

mutual

def printExpr : PatternExpr → Text
  | .seq steps => printSteps lowest 0 steps
  | .stack members => ['s', 't', 'a', 'c', 'k', '('] ++ (printMembers 0 members ++ [')'])
  | .every period offset transform inner =>
    (if offset = 0 then ['e', 'v', 'e', 'r', 'y', '('] ++ (Print.natural period ++ separator)
      else ['e', 'v', 'e', 'r', 'y', '('] ++ (Print.natural period ++ (separator ++ (Print.natural offset ++ separator)))) ++
    (PatternTransform.print lowest transform ++ (separator ++ (printExpr inner ++ [')'])))
  | .rotate steps inner => ['r', 'o', 't', '('] ++ (Print.integer steps ++ (separator ++ (printExpr inner ++ [')'])))
  | .euclid hits slots rotation element =>
    (if rotation = I32.zero then ['e', '('] ++ (Print.natural hits ++ (separator ++ (Print.natural slots ++ separator)))
      else ['e', '('] ++ (Print.natural hits ++ (separator ++ (Print.natural slots ++
        (separator ++ (Print.integer rotation ++ separator)))))) ++
    (printElement lowest element ++ [')'])
  | .fast factor inner => ['f', 'a', 's', 't', '('] ++ (Print.natural factor ++ (separator ++ (printExpr inner ++ [')'])))
  | .slow factor inner => ['s', 'l', 'o', 'w', '('] ++ (Print.natural factor ++ (separator ++ (printExpr inner ++ [')'])))
  | .swing amount inner => ['s', 'w', 'i', 'n', 'g', '('] ++ (debug lowest amount ++ (separator ++ (printExpr inner ++ [')'])))
  | .gain linear inner => ['g', 'a', 'i', 'n', '('] ++ (debug lowest linear ++ (separator ++ (printExpr inner ++ [')'])))
  | .degrade probability inner =>
    ['d', 'e', 'g', 'r', 'a', 'd', 'e', '('] ++ (debug lowest probability ++ (separator ++ (printExpr inner ++ [')'])))

def printMembers (index : Nat) : List PatternExpr → Text
  | [] => []
  | member :: more => (if 0 < index then separator else []) ++ (printExpr member ++ printMembers (index + 1) more)

end

theorem printExpr_seq (steps : List (StepOf Element)) : printExpr lowest (.seq steps) = printSteps lowest 0 steps := by
  rw [printExpr]

/-- Canonical form of a term. -/
def print (expr : PatternExpr) : Text := printExpr lowest expr

end Audec.PatternLang
