import CodeAtlas.Pattern.Basic

/-!
Regular expressions as trees, and the limits that keep the patterns made of them small: on counted
repetitions within each other, on nesting, and on size.
-/

namespace CodeAtlas

inductive Expression where
  /-- one character that stands for itself, as a set -/
  | literal (set : CharSet)
  /-- a set of characters, or a condition on a place -/
  | basic (pattern : Pattern)
  | group (body : Expression)
  /-- at least `least` rounds and at most `most`, if that is given; `counted` if the numbers are
  written out -/
  | rounds (greedy counted : Bool) (least : Nat) (most : Option Nat) (body : Expression)
  | sequence (parts : List Expression)
  | choice (branches : List Expression)
  deriving Inhabited

namespace Expression

def upTo (greedy : Bool) (p : Pattern) : Nat → Pattern
  | 0 => .empty
  | n + 1 =>
      let more := Pattern.seq p (upTo greedy p n)
      if greedy then .alt more .empty else .alt .empty more

/-- Any number of rounds; runs of single characters have a pattern of their own. -/
def anyRounds (greedy : Bool) : Pattern → Pattern
  | .char set => .repeatSet greedy set
  | p => .star greedy p

def repeated (greedy : Bool) (least : Nat) (most : Option Nat) (p : Pattern) : Pattern :=
  let rest := match most with
    | none => anyRounds greedy p
    | some m => upTo greedy p (m - least)
  Pattern.chain (List.replicate least p ++ [rest])

mutual

def pattern : Expression → Pattern
  | literal set => .char set
  | basic p => p
  | group body => body.pattern
  | rounds greedy _ least most body => repeated greedy least most body.pattern
  | sequence parts => Pattern.chain (patterns parts)
  | choice branches => Pattern.oneOf (patterns branches)

def patterns : List Expression → List Pattern
  | [] => []
  | e :: rest => e.pattern :: patterns rest

end

/-! Limits. -/

/-- The largest number of rounds that can be asked for, within each other taken together. -/
def maxRounds : Nat := 1000

def maxHeight : Nat := 1000

def maxSize : Nat := 3355443

mutual

/-- Whether the counted repetitions along every branch multiply to at most `n`; one that allows no
round ends the count. -/
def roundsWithin (n : Nat) : Expression → Bool
  | literal _ => true
  | basic _ => true
  | group body => body.roundsWithin n
  | rounds _ counted least most body =>
      if counted then
        let m := most.getD least
        if most == some 0 then true
        else if m > n then false
        else body.roundsWithin (if m > 0 then n / m else n)
      else
        body.roundsWithin n
  | sequence parts => allRoundsWithin n parts
  | choice branches => allRoundsWithin n branches

def allRoundsWithin (n : Nat) : List Expression → Bool
  | [] => true
  | e :: rest => e.roundsWithin n && allRoundsWithin n rest

end

mutual

/-- Whether every counted repetition with more than one round keeps within the limit. -/
def isBounded : Expression → Bool
  | literal _ => true
  | basic _ => true
  | group body => body.isBounded
  | rounds greedy counted least most body =>
      let many := counted && (least ≥ 2 || most.any (· ≥ 2))
      (!many || roundsWithin maxRounds (rounds greedy counted least most body)) && body.isBounded
  | sequence parts => allBounded parts
  | choice branches => allBounded branches

def allBounded : List Expression → Bool
  | [] => true
  | e :: rest => e.isBounded && allBounded rest

end

def isLiteral : Expression → Bool
  | literal _ => true
  | _ => false

def isSingle : Expression → Bool
  | literal _ => true
  | basic (.char _) => true
  | _ => false

mutual

/-- How deep an expression is nested.  Literals in a row count as one, and so do branches that are
single characters. -/
def height : Expression → Nat
  | literal _ => 1
  | basic _ => 1
  | group body => body.height + 1
  | rounds _ _ _ _ body => body.height + 1
  | sequence parts =>
      match parts with
      | [] => 1
      | [e] => e.height
      | parts => if parts.all isLiteral then 1 else maxHeightOf parts + 1
  | choice branches =>
      match branches with
      | [] => 1
      | [e] => e.height
      | branches => if branches.all isSingle then 1 else maxHeightOf branches + 1

def maxHeightOf : List Expression → Nat
  | [] => 0
  | e :: rest => max e.height (maxHeightOf rest)

end

mutual

/-- How large an expression is when its repetitions are written out. -/
def size : Expression → Nat
  | literal _ => 1
  | basic _ => 1
  | group body => body.size + 2
  | rounds _ counted least most body =>
      if counted then
        match most with
        | none => if least == 0 then body.size + 2 else least * body.size + 1
        | some m => max 1 (m * body.size + (m - least))
      else if least == 0 && most.isNone then body.size + 2
      else body.size + 1
  | sequence parts => max 1 (sizeOf parts)
  | choice branches => max 1 (sizeOf branches + (branches.length - 1))

def sizeOf : List Expression → Nat
  | [] => 0
  | e :: rest => e.size + sizeOf rest

end

def isWithinLimits (e : Expression) : Bool :=
  e.isBounded && e.height ≤ maxHeight && e.size ≤ maxSize

end Expression

end CodeAtlas
