import CodeAtlas.Number

/-!
Decimal texts of binary fractions.  A finite number is taken apart into a whole number of units that are
a power of two, and rounding is done on whole numbers.
-/

namespace CodeAtlas

structure Fraction where
  num : Nat
  den : Nat
  deriving DecidableEq, Repr

/-- The whole number nearest to a fraction; of two equally near ones the even one. -/
def Fraction.round (f : Fraction) : Nat :=
  let whole := f.num / f.den
  let twice := 2 * (f.num % f.den)
  if twice > f.den then whole + 1
  else if twice < f.den then whole
  else if whole % 2 == 0 then whole
  else whole + 1

def Fraction.scale (f : Fraction) (power : Int) : Fraction :=
  if power ≥ 0 then ⟨f.num * Nat.pow 10 power.toNat, f.den⟩
  else ⟨f.num, f.den * Nat.pow 10 (-power).toNat⟩

/-- A finite binary number: its sign, and its magnitude as `mantissa · 2 ^ exponent`. -/
structure Binary where
  negative : Bool
  mantissa : Nat
  exponent : Int
  deriving DecidableEq, Repr

/-- The leading bit of a normal double, which is not stored. -/
def hiddenBit : Nat := 4503599627370496

/-- The parts of a double; the infinities and NaN count as zero. -/
def Binary.ofFloat (x : Float) : Binary :=
  let bits := x.toBits.toNat
  let biased : Nat := (bits / hiddenBit) % 2048
  let low : Nat := bits % hiddenBit
  let negative := bits / signedLimit == 1
  if biased == 2047 then ⟨negative, 0, 0⟩
  else if biased == 0 then ⟨negative, low, -1074⟩
  else ⟨negative, hiddenBit + low, (biased : Int) - 1075⟩

/-- `n · 2 ^ e` as a fraction. -/
def Fraction.ofPower (n : Nat) (e : Int) : Fraction :=
  if e ≥ 0 then ⟨n * Nat.pow 2 e.toNat, 1⟩ else ⟨n, Nat.pow 2 (-e).toNat⟩

def Binary.magnitude (b : Binary) : Fraction :=
  .ofPower b.mantissa b.exponent

def padLeft (width : Nat) (c : Char) (text : String) : String :=
  String.ofList (List.replicate (width - text.length) c) ++ text

/-- A whole number of units of `10 ^ -places` with a point before the last `places` digits. -/
def pointText (places units : Nat) : String :=
  let digits := (padLeft (places + 1) '0' (toString units)).toList
  let cut := digits.length - places
  let whole := String.ofList (digits.take cut)
  if places == 0 then whole else whole ++ "." ++ String.ofList (digits.drop cut)

/-- A double with a fixed number of decimals, rounded to nearest and ties to even.  A zero has no
sign. -/
def fixedText (places : Nat) (x : Float) : String :=
  let b := Binary.ofFloat x
  let units := (b.magnitude.scale places).round
  (if b.negative && b.mantissa != 0 then "-" else "") ++ pointText places units

/-- Whether a fraction lies strictly below, or with `closed` at most at, another. -/
def Fraction.below (closed : Bool) (f g : Fraction) : Bool :=
  if closed then f.num * g.den ≤ g.num * f.den else f.num * g.den < g.num * f.den

def Fraction.leadExponent (f : Fraction) : Int :=
  if f.den ≤ f.num then
    ((toString (f.num / f.den)).length : Int) - 1
  else
    let rec search (fuel : Nat) (j : Nat) : Int :=
      match fuel with
      | 0 => -(j : Int)
      | fuel + 1 => if f.den ≤ f.num * Nat.pow 10 j then -(j : Int) else search fuel (j + 1)
    search 400 1

/-- The digits and the exponent of the last digit of the shortest decimal that rounds to the number. -/
def Binary.shortest (b : Binary) : Nat × Int :=
  let v := b.magnitude
  let closed := b.mantissa % 2 == 0
  let low :=
    if b.mantissa == hiddenBit then Fraction.ofPower (4 * b.mantissa - 1) (b.exponent - 2)
    else Fraction.ofPower (2 * b.mantissa - 1) (b.exponent - 1)
  let high := Fraction.ofPower (2 * b.mantissa + 1) (b.exponent - 1)
  let lead := v.leadExponent
  let fits (d : Nat) (p : Int) : Bool :=
    let f := (Fraction.mk d 1).scale p
    Fraction.below closed low f && Fraction.below closed f high
  let rec search (fuel digits : Nat) : Nat × Int :=
    let p := lead - digits + 1
    let scaled := v.scale (-p)
    match fuel with
    | 0 => (scaled.round, p)
    | fuel + 1 =>
        let near := scaled.round
        let floor := scaled.num / scaled.den
        if fits near p then (near, p)
        else if fits floor p then (floor, p)
        else if fits (floor + 1) p then (floor + 1, p)
        else search fuel (digits + 1)
  search 17 1

def dropZeros : Nat → Nat → Int → Nat × Int
  | 0, n, p => (n, p)
  | fuel + 1, n, p => if n % 10 == 0 && n != 0 then dropZeros fuel (n / 10) (p + 1) else (n, p)

/-- The shortest text that reads back as the number: positional from 1e-6 up to below 1e21, with an
exponent otherwise. -/
def shortestText (x : Float) : String :=
  let b := Binary.ofFloat x
  if b.mantissa == 0 then (if b.negative then "-0" else "0")
  else
    let (d, p) := b.shortest
    let (d, p) := dropZeros 20 d p
    let digits := toString d
    let lead := (digits.length : Int) - 1 + p
    let sign := if b.negative then "-" else ""
    if lead < -6 || lead ≥ 21 then
      let body := match digits.toList with
        | [c] => String.singleton c
        | c :: rest => String.ofList (c :: '.' :: rest)
        | [] => ""
      sign ++ body ++ "e" ++ (if lead < 0 then "-" else "+") ++ toString lead.natAbs
    else if p ≥ 0 then
      sign ++ digits ++ String.ofList (List.replicate p.toNat '0')
    else
      sign ++ pointText (-p).toNat d

def ratOfFloat (x : Float) : Rat :=
  let b := Binary.ofFloat x
  let f := b.magnitude
  mkRat (if b.negative then -(f.num : Int) else f.num) f.den

/-- A fraction as a double: its two terms, divided. -/
def doubleOfRat (q : Rat) : Float := Float.ofInt q.num / Float.ofNat q.den

def digitsValue? (digits : List Char) : Option Nat :=
  if digits.all Char.isDigit then
    some (digits.foldl (fun n c => n * 10 + (c.toNat - 48)) 0)
  else none

/-- The double nearest to a decimal number with optional sign, fraction and exponent. -/
def doubleOfText? (text : String) : Option Float := do
  let (negative, cs) := match text.toList with
    | '-' :: rest => (true, rest)
    | '+' :: rest => (false, rest)
    | cs => (false, cs)
  let isMark (c : Char) : Bool := c == 'e' || c == 'E'
  let body := cs.takeWhile (!isMark ·)
  let whole := body.takeWhile (· != '.')
  let fraction := (body.dropWhile (· != '.')).drop 1
  if whole.isEmpty && fraction.isEmpty then none
  let mantissa ← digitsValue? (whole ++ fraction)
  let power ← match cs.dropWhile (!isMark ·) with
    | [] => some (0 : Int)
    | _ :: '-' :: digits => if digits.isEmpty then none else (digitsValue? digits).map (- ·)
    | _ :: '+' :: digits => if digits.isEmpty then none else (digitsValue? digits).map (·)
    | _ :: digits => if digits.isEmpty then none else (digitsValue? digits).map (·)
  let power := power - fraction.length
  -- beyond these bounds the result is an infinity or zero
  let power := min (max power (-100000)) 100000
  let x := Float.ofScientific mantissa (power < 0) power.natAbs
  some (if negative then -x else x)

end CodeAtlas
