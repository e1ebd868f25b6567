import CodeAtlas.Yaml.Token

/-!
Scalars as they are written: plain, between quotes, or as a block.  A reader gives the text and the
place after it; it fails on what cannot be read.
-/

namespace CodeAtlas.Yaml

/-- A scalar that was read; `broken` tells whether a plain one was followed by the end of its line. -/
structure Written where
  text : String
  place : Place
  broken : Bool
  deriving Inhabited

def endsPlain (inFlow : Bool) (p : Place) : Bool :=
  match p.next with
  | none => true
  | some c =>
      isGap (some c) || (c == ':' && isGap (p.ahead 1)) ||
        (inFlow && (c == ',' || c == '?' || c == '[' || c == ']' || c == '{' || c == '}'))

def plainRun (inFlow : Bool) : (fuel : Nat) → Place → List Char → Place × List Char
  | 0, p, done => (p, done)
  | fuel + 1, p, done =>
      match p.next with
      | some c => if endsPlain inFlow p then (p, done) else plainRun inFlow fuel p.advance (c :: done)
      | none => (p, done)

/-- Reads a plain scalar whose later lines are indented by at least `least`; `done` is the text so far,
back to front. -/
def plain? (inFlow : Bool) (least : Nat) : (fuel : Nat) → Place → Fold → List Char → Option Written
  | 0, _, _, _ => none
  | fuel + 1, p, fold, done =>
      let stop : Written := ⟨String.ofList done.reverse, p, fold.broken⟩
      if p.atDocumentMark || p.next == some '#' then some stop
      else
        let (q, run) := plainRun inFlow p.left p []
        let (done, fold) :=
          if run.isEmpty then (done, fold) else (run ++ fold.text.reverse ++ done, Fold.none)
        match q.next with
        | some c =>
            if isSpace c || isBreak c then do
              let (q, fold) ← Fold.read? least q.left q fold
              if !inFlow && q.column < least then
                some ⟨String.ofList done.reverse, q, fold.broken⟩
              else plain? inFlow least fuel q fold done
            else some ⟨String.ofList done.reverse, q, fold.broken⟩
        | none => some ⟨String.ofList done.reverse, q, fold.broken⟩

/-- The character with a hexadecimal number, unless it is a surrogate or too large. -/
def charOfHex? (digits : List Char) : Option Char := do
  let n ← digits.foldlM (fun n c => (hexValue? c).map (n * 16 + ·)) 0
  if (0xD800 ≤ n && n ≤ 0xDFFF) || n > 0x10FFFF then none else some (Char.ofNat n)

def shortEscape? (c : Char) : Option Char :=
  match c with
  | '0' => some (Char.ofNat 0)
  | 'a' => some (Char.ofNat 7)
  | 'b' => some (Char.ofNat 8)
  | 't' | '\t' => some '\t'
  | 'n' => some '\n'
  | 'v' => some (Char.ofNat 11)
  | 'f' => some (Char.ofNat 12)
  | 'r' => some '\r'
  | 'e' => some (Char.ofNat 27)
  | ' ' => some ' '
  | '"' => some '"'
  | '\'' => some '\''
  | '\\' => some '\\'
  | 'N' => some (Char.ofNat 0x85)
  | '_' => some (Char.ofNat 0xA0)
  | 'L' => some (Char.ofNat 0x2028)
  | 'P' => some (Char.ofNat 0x2029)
  | _ => none

def hexEscape? (c : Char) : Option Nat :=
  if c == 'x' then some 2 else if c == 'u' then some 4 else if c == 'U' then some 8 else none

/-- Reads the inside of a quoted scalar up to a gap or the closing quote.  The last component tells
whether the end of the line was escaped. -/
def quotedRun? (quote : Char) : (fuel : Nat) → Place → List Char → Option (Place × List Char × Bool)
  | 0, _, _ => none
  | fuel + 1, p, done =>
      match p.next with
      | none => some (p, done, false)
      | some c =>
          if isGap (some c) then some (p, done, false)
          else if c == quote then
            if quote == '\'' && p.ahead 1 == some '\'' then
              quotedRun? quote fuel (p.advance 2) ('\'' :: done)
            else some (p, done, false)
          else if quote == '"' && c == '\\' then
            match p.ahead 1 with
            | none => none
            | some e =>
                if isBreak e then some (p.advance.newline.1, done, true)
                else
                  match shortEscape? e, hexEscape? e with
                  | some d, _ => quotedRun? quote fuel (p.advance 2) (d :: done)
                  | none, some n =>
                      let digits := (p.rest.drop 2).take n
                      if digits.length < n then none
                      else (charOfHex? digits).bind fun d =>
                        quotedRun? quote fuel (p.advance (n + 2)) (d :: done)
                  | none, none => none
          else quotedRun? quote fuel p.advance (c :: done)

def quoted? (quote : Char) : (fuel : Nat) → Place → List Char → Option Written
  | 0, _, _ => none
  | fuel + 1, p, done =>
      if p.atDocumentMark || p.next.isNone then none
      else do
        let (p, done, escaped) ← quotedRun? quote (p.left + 1) p done
        if p.next == some quote && !escaped then
          some ⟨String.ofList done.reverse, p.advance, false⟩
        else
          let (p, fold) ← Fold.read? 0 p.left p { Fold.none with broken := escaped }
          quoted? quote fuel p (fold.text.reverse ++ done)

inductive Chomp where
  | strip
  | clip
  | keep
  deriving DecidableEq, Repr, Inhabited

/-- Reads the two marks after the sign of a block, in either order: what is kept at its end, and its
indentation. -/
def blockHeader? (p : Place) : Option (Place × Chomp × Nat) :=
  let chomp? (c : Option Char) : Option Chomp :=
    if c == some '+' then some .keep else if c == some '-' then some .strip else none
  let digit? (c : Option Char) : Option Nat :=
    c.bind fun c => if c.isDigit then some (c.toNat - 48) else none
  match chomp? p.next with
  | some chomp =>
      match digit? (p.ahead 1) with
      | some n => if n == 0 then none else some (p.advance 2, chomp, n)
      | none => some (p.advance, chomp, 0)
  | none =>
      match digit? p.next with
      | some n =>
          if n == 0 then none
          else
            match chomp? (p.ahead 1) with
            | some chomp => some (p.advance 2, chomp, n)
            | none => some (p.advance, .clip, n)
      | none => some (p, .clip, 0)

/-- Reads empty lines and the indentation of the next line.  An indentation of zero is not known yet;
`widest` is the greatest seen. -/
def blockBreaks? (indent : Nat) : (fuel : Nat) → (widest : Nat) → Place → List Char →
    Option (Place × Nat × List Char)
  | 0, widest, p, breaks => some (p, widest, breaks)
  | fuel + 1, widest, p, breaks =>
      let spaces := (p.rest.takeWhile (· == ' ')).length
      let p := p.advance (if indent == 0 then spaces else min spaces (indent - p.column))
      let widest := max widest p.column
      if (indent == 0 || p.column < indent) && p.next == some '\t' then none
      else
        match p.next with
        | some c =>
            if isBreak c then
              let (p, line) := p.newline
              blockBreaks? indent fuel widest p (breaks ++ line)
            else some (p, widest, breaks)
        | none => some (p, widest, breaks)

/-- Reads the lines of a block: the text so far back to front, the last end of a line, those after it,
and whether the last line started with a blank. -/
def blockLines? (literal : Bool) (indent : Nat) : (fuel : Nat) → Place → List Char → List Char →
    List Char → Bool → Option (Place × List Char × List Char × List Char)
  | 0, p, done, last, others, _ => some (p, done, last, others)
  | fuel + 1, p, done, last, others, wasBlank =>
      if p.column == indent && p.next.isSome then do
        let isBlankLine := p.next.any isSpace
        let joint :=
          if !literal && last.head? == some '\n' && !wasBlank && !isBlankLine then
            (if others.isEmpty then [' '] else [])
          else last
        let done := others.reverse ++ joint.reverse ++ done
        let run := p.rest.takeWhile (!isBreak ·)
        let p := p.advance run.length
        let (p, last) := p.newline
        let (p, _, others) ← blockBreaks? indent (p.left + 1) 0 p []
        blockLines? literal indent fuel p (run.reverse ++ done) last others isBlankLine
      else some (p, done, last, others)

def block? (literal : Bool) (outer : Int) (p : Place) : Option Written := do
  let (p, chomp, increment) ← blockHeader? p
  let p := p.skipWhile isSpace
  let p := if p.next == some '#' then p.skipWhile (!isBreak ·) else p
  if !(p.next.all isBreak) then none
  let p := p.newline.1
  let indent : Nat :=
    if increment == 0 then 0 else if outer ≥ 0 then outer.toNat + increment else increment
  let (p, widest, others) ← blockBreaks? indent (p.left + 1) 0 p []
  let indent := if indent == 0 then max (max widest (outer + 1).toNat) 1 else indent
  let (p, done, last, others) ← blockLines? literal indent (p.left + 1) p [] [] others false
  let tail := match chomp with
    | .strip => []
    | .clip => last
    | .keep => last ++ others
  some ⟨String.ofList (done.reverse ++ tail), p, false⟩

end CodeAtlas.Yaml
