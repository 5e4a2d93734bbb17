import Delegation.Regex.Basic
import Delegation.Text.Split

namespace Delegation.Regex

attribute [local instance (2000)] instPowNat

structure Flags where
  ignoreCase : Bool := false
  multiLine : Bool := false
  dotAll : Bool := false
  anyLineEnd : Bool := false
  unicode : Bool := true
  verbose : Bool := false

/-- What is left to read, the flags in force, and the group names used so far. -/
structure ReadState where
  rest : List Char
  flags : Flags := {}
  names : List (List Char) := []

abbrev Reading := StateT ReadState Option

inductive Atom
  | char (c : Char)
  | set (s : CharSet)
  | anchor (a : Anchor)

inductive SetOperation
  | inter
  | diff
  | symmDiff

def SetOperation.apply : SetOperation → CharSet → CharSet → CharSet
  | inter => .inter
  | diff => .diff
  | symmDiff => .symmDiff

def namedSets : List (String × CharSet) := [
  ("alnum", .union .digits .letters),
  ("alpha", .letters),
  ("ascii", .between 0 0x7f),
  ("blank", .ofChars [' ', '\t']),
  ("cntrl", .union (.between 0 0x1f) (.between 0x7f 0x7f)),
  ("digit", .digits),
  ("graph", .between 0x21 0x7e),
  ("lower", .lowers),
  ("print", .between 0x20 0x7e),
  ("punct", .unions [.between 0x21 0x2f, .between 0x3a 0x40, .between 0x5b 0x60,
    .between 0x7b 0x7e]),
  ("space", .union (.between 0x09 0x0d) (.single ' ')),
  ("upper", .uppers),
  ("word", .unions [.digits, .letters, .single '_']),
  ("xdigit", .unions [.digits, .between 0x41 0x46, .between 0x61 0x66])]

def categoryNames : List (String × String) := [
  ("l", "L"), ("letter", "L"),
  ("lu", "Lu"), ("uppercaseletter", "Lu"), ("ll", "Ll"), ("lowercaseletter", "Ll"),
  ("lt", "Lt"), ("titlecaseletter", "Lt"), ("lm", "Lm"), ("modifierletter", "Lm"),
  ("lo", "Lo"), ("otherletter", "Lo"),
  ("m", "M"), ("mark", "M"), ("combiningmark", "M"),
  ("mn", "Mn"), ("nonspacingmark", "Mn"), ("mc", "Mc"), ("spacingmark", "Mc"),
  ("me", "Me"), ("enclosingmark", "Me"),
  ("n", "N"), ("number", "N"),
  ("nd", "Nd"), ("decimalnumber", "Nd"), ("digit", "Nd"), ("nl", "Nl"), ("letternumber", "Nl"),
  ("no", "No"), ("othernumber", "No"),
  ("p", "P"), ("punctuation", "P"), ("punct", "P"),
  ("pc", "Pc"), ("connectorpunctuation", "Pc"), ("pd", "Pd"), ("dashpunctuation", "Pd"),
  ("ps", "Ps"), ("openpunctuation", "Ps"), ("pe", "Pe"), ("closepunctuation", "Pe"),
  ("pi", "Pi"), ("initialpunctuation", "Pi"), ("pf", "Pf"), ("finalpunctuation", "Pf"),
  ("po", "Po"), ("otherpunctuation", "Po"),
  ("s", "S"), ("symbol", "S"),
  ("sm", "Sm"), ("mathsymbol", "Sm"), ("sc", "Sc"), ("currencysymbol", "Sc"),
  ("sk", "Sk"), ("modifiersymbol", "Sk"), ("so", "So"), ("othersymbol", "So"),
  ("z", "Z"), ("separator", "Z"),
  ("zs", "Zs"), ("spaceseparator", "Zs"), ("zl", "Zl"), ("lineseparator", "Zl"),
  ("zp", "Zp"), ("paragraphseparator", "Zp"),
  ("c", "C"), ("other", "C"),
  ("cc", "Cc"), ("control", "Cc"), ("cntrl", "Cc"), ("cf", "Cf"), ("format", "Cf"),
  ("co", "Co"), ("privateuse", "Co"), ("cn", "Cn"), ("unassigned", "Cn")]

/-- The set of a property name, in which case, blanks, hyphens, underscores and a leading `is` do not
count. -/
def propertySet? (name : List Char) : Option CharSet :=
  let plain := (name.filter fun c => c ≠ ' ' ∧ c ≠ '-' ∧ c ≠ '_').map Char.toLower
  let plain := if plain.take 2 = ['i', 's'] then plain.drop 2 else plain
  match plain with
  | ['a', 'n', 'y'] => some .full
  | ['a', 's', 'c', 'i', 'i'] => some (.between 0 0x7f)
  | ['a', 's', 's', 'i', 'g', 'n', 'e', 'd'] => some (.complement (.category ['C', 'n']))
  | ['l', 'c'] => some (.unions [.category ['L', 'u'], .category ['L', 'l'], .category ['L', 't']])
  | _ => (categoryNames.lookup (String.ofList plain)).map fun letters => .category letters.toList

def qualifiedSet? (name : List Char) : Option CharSet :=
  match splitOn ':' name, splitOn '=' name with
  | [key, value], _ => if isCategoryKey key then propertySet? value else none
  | _, [key, value] =>
    if key.getLast? = some '!' then
      if isCategoryKey key.dropLast then (propertySet? value).map .complement else none
    else if isCategoryKey key then propertySet? value else none
  | _, _ => propertySet? name
where
  isCategoryKey (key : List Char) : Bool :=
    let plain := (key.filter fun c => c ≠ ' ' ∧ c ≠ '-' ∧ c ≠ '_').map Char.toLower
    plain = "gc".toList || plain = "generalcategory".toList || plain = "category".toList

namespace Reading

def dropIgnored (inComment : Bool) : List Char → List Char
  | [] => []
  | c :: cs =>
    if inComment then dropIgnored (c ≠ '\n') cs
    else if CharSet.whiteSpace.mem c then dropIgnored false cs
    else if c = '#' then dropIgnored true cs
    else c :: cs

def skipIgnored : Reading Unit :=
  modify fun s => if s.flags.verbose then { s with rest := dropIgnored false s.rest } else s

def peek? : Reading (Option Char) := return (← get).rest.head?

def peek : Reading Char := do
  let some c := (← get).rest.head? | failure
  return c

def advance : Reading Unit := modify fun s => { s with rest := s.rest.tail }

def advanceSkipping : Reading Unit := do
  advance
  skipIgnored

def accept (cs : List Char) : Reading Bool := do
  let s ← get
  if cs.isPrefixOf s.rest then
    set { s with rest := s.rest.drop cs.length }
    return true
  return false

def flags : Reading Flags := return (← get).flags

def underCase (s : CharSet) : Reading CharSet :=
  return if (← flags).ignoreCase then .folded s else s

def guardThat (b : Bool) : Reading Unit := if b then pure () else failure

/-- A set without some characters, which only Unicode mode can express. -/
def complementOf (s : CharSet) : Reading CharSet := do
  guardThat (← flags).unicode
  return .complement s

def isHexDigit (c : Char) : Bool := c.isDigit || ('a' ≤ c && c ≤ 'f') || ('A' ≤ c && c ≤ 'F')

def hexValue (digits : List Char) : Nat :=
  digits.foldl (fun n c => 16 * n +
    (if c.isDigit then c.toNat - '0'.toNat else c.toLower.toNat - 'a'.toNat + 10)) 0

def codePoint (digits : List Char) : Reading Atom := do
  guardThat (!digits.isEmpty && digits.all isHexDigit)
  let n := hexValue digits
  guardThat (decide n.isValidChar)
  return .char (Char.ofNat n)

def braced : Reading (List Char) := do
  let s ← get
  let inner := s.rest.takeWhile (· ≠ '\x7d')
  guardThat (inner.length < s.rest.length)
  set { s with rest := s.rest.drop (inner.length + 1) }
  return if s.flags.verbose then inner.filter (!CharSet.whiteSpace.mem ·) else inner

/-- A hexadecimal code point, in braces or with a fixed number of digits. -/
def hexEscape (count : Nat) : Reading Atom := do
  if ← accept ['\x7b'] then
    codePoint (← braced)
  else
    let s ← get
    let digits := s.rest.take count
    guardThat (digits.length = count)
    set { s with rest := s.rest.drop count }
    codePoint digits

def propertyEscape (negated : Bool) : Reading Atom := do
  guardThat (← flags).unicode
  skipIgnored
  let found ←
    if ← accept ['\x7b'] then pure (qualifiedSet? (← braced))
    else
      let c ← peek
      advanceSkipping
      pure (propertySet? [c])
  let some s := found | failure
  let s ← underCase s
  return .set (if negated then .complement s else s)

def wordSet : Reading CharSet :=
  return if (← flags).unicode then .word else .unions [.digits, .letters, .single '_']

def classEscape (c : Char) : Reading Atom := do
  let unicode := (← flags).unicode
  let s ←
    match c.toLower with
    | 'd' => pure (if unicode then CharSet.decimal else .digits)
    | 's' => pure (if unicode then CharSet.whiteSpace else .union (.between 0x09 0x0d) (.single ' '))
    | _ => wordSet
  if c.isUpper then return .set (← complementOf s)
  return .set s

/-- A word boundary, or one of its four one-sided forms named in braces. -/
def boundary : Reading Atom := do
  let word ← wordSet
  let s ← get
  match s.rest with
  | '\x7b' :: c :: _ =>
    if c.isAlpha || c = '-' then
      advance
      match String.ofList (← braced) with
      | "start" => return .anchor (.wordStart word)
      | "end" => return .anchor (.wordEnd word)
      | "start-half" => return .anchor (.noWordBefore word)
      | "end-half" => return .anchor (.noWordAfter word)
      | _ => failure
    else return .anchor (.wordBoundary word)
  | _ => return .anchor (.wordBoundary word)

def isEscapable (c : Char) : Bool := c.toNat < 0x80 && !c.isAlphanum && c ≠ '<' && c ≠ '>'

/-- What an escape stands for, its backslash still to be read. -/
def escape : Reading Atom := do
  advance
  let c ← peek
  advance
  match c with
  | 'x' => hexEscape 2
  | 'u' => hexEscape 4
  | 'U' => hexEscape 8
  | 'p' => propertyEscape false
  | 'P' => propertyEscape true
  | 'd' | 's' | 'w' | 'D' | 'S' | 'W' => classEscape c
  | 'a' => return .char '\x07'
  | 'f' => return .char '\x0c'
  | 't' => return .char '\t'
  | 'n' => return .char '\n'
  | 'r' => return .char '\r'
  | 'v' => return .char '\x0b'
  | 'A' => return .anchor .textStart
  | 'z' => return .anchor .textEnd
  | 'b' => boundary
  | 'B' => return .anchor (.noWordBoundary (← wordSet))
  | '<' => return .anchor (.wordStart (← wordSet))
  | '>' => return .anchor (.wordEnd (← wordSet))
  | _ => if isEscapable c then return .char c else failure

def bracketAtom : Reading Atom := do
  let c ← peek
  if c = '\\' then escape
  else
    advance
    return .char c

def bracketItem : Reading CharSet := do
  let first ← bracketAtom
  skipIgnored
  let next ← peek
  let rest := (← get).rest
  let rest := if (← flags).verbose then '-' :: dropIgnored false rest.tail else rest
  let isRange := next = '-' && rest[1]? ≠ some ']' && rest[1]? ≠ some '-'
  match first with
  | .char c =>
    if isRange then
      advanceSkipping
      match ← bracketAtom with
      | .char d =>
        guardThat (c ≤ d)
        return .range c d
      | _ => failure
    else return .single c
  | .set s =>
    guardThat (!isRange)
    return s
  | .anchor _ => failure

def namedSet? : Reading (Option CharSet) := do
  let s ← get
  match s.rest with
  | '[' :: ':' :: cs =>
    let negated := cs.head? = some '^'
    let cs := if negated then cs.tail else cs
    let name := cs.takeWhile (· ≠ ':')
    let after := cs.drop name.length
    match namedSets.lookup (String.ofList name), [':', ']'].isPrefixOf after with
    | some found, true =>
      set { s with rest := after.drop 2 }
      let found ← underCase found
      return some (if negated then .complement found else found)
    | _, _ => return none
  | _ => return none

/-- Hyphens at the start of brackets, which stand for themselves. -/
def leadingHyphens : Nat → Reading (List Char)
  | 0 => failure
  | fuel + 1 => do
    if (← peek) = '-' then
      advanceSkipping
      return '-' :: (← leadingHyphens fuel)
    return []

mutual

def bracket : Nat → Reading CharSet
  | 0 => failure
  | fuel + 1 => do
    advanceSkipping
    let negated := (← peek) = '^'
    if negated then advanceSkipping
    let hyphens ← leadingHyphens fuel
    let literal ←
      if hyphens.isEmpty && (← peek) = ']' then
        advanceSkipping
        pure [']']
      else pure hyphens
    let s ← underCase (← bracketBody fuel none (.ofChars literal))
    if negated then complementOf s else return s

/-- The rest of a bracket expression: the operation still to be applied with its left side, and the
union gathered since. -/
def bracketBody : Nat → Option (SetOperation × CharSet) → CharSet → Reading CharSet
  | 0, _, _ => failure
  | fuel + 1, pending, gathered => do
    let settle (s : CharSet) : Reading CharSet := do
      match pending with
      | none => return s
      | some (operation, left) => return operation.apply (← underCase left) (← underCase s)
    skipIgnored
    match ← peek with
    | ']' =>
      advance
      settle gathered
    | '[' =>
      match ← namedSet? with
      | some s => bracketBody fuel pending (.union gathered s)
      | none =>
        let s ← bracket fuel
        bracketBody fuel pending (.union gathered s)
    | _ =>
      if ← accept ['&', '&'] then bracketBody fuel (some (.inter, ← settle gathered)) .none
      else if ← accept ['-', '-'] then bracketBody fuel (some (.diff, ← settle gathered)) .none
      else if ← accept ['~', '~'] then bracketBody fuel (some (.symmDiff, ← settle gathered)) .none
      else bracketBody fuel pending (.union gathered (← bracketItem))

end

def maxCount : Nat := 2 ^ (32 : Nat) - 1

def count : Reading Nat := do
  modify fun s => { s with rest := s.rest.dropWhile CharSet.whiteSpace.mem }
  let s ← get
  let digits := s.rest.takeWhile Char.isDigit
  guardThat (!digits.isEmpty)
  let n := digits.foldl (fun n c => 10 * n + (c.toNat - '0'.toNat)) 0
  guardThat (n ≤ maxCount)
  set { s with rest := (s.rest.drop digits.length).dropWhile CharSet.whiteSpace.mem }
  return n

def counted (r : Regex) : Reading Regex := do
  advanceSkipping
  let least ← count
  let result ←
    if ← accept [','] then
      skipIgnored
      if (← peek) = '\x7d' then pure (Regex.atLeast least r)
      else
        let most ← count
        guardThat (least ≤ most)
        pure (Regex.between least most r)
    else pure (Regex.between least least r)
  guardThat ((← peek) = '\x7d')
  advanceSkipping
  return result

def isNameStart (c : Char) : Bool := c = '_' || CharSet.alphabetic.mem c

def isNamePart (c : Char) : Bool :=
  isNameStart c || c = '.' || c = '[' || c = ']' || (CharSet.category ['N']).mem c

def groupName : Reading Unit := do
  let s ← get
  let name := s.rest.takeWhile (· ≠ '>')
  guardThat (name.length < s.rest.length && name.head?.any isNameStart && name.all isNamePart)
  guardThat (!s.names.contains name)
  set { s with rest := s.rest.drop (name.length + 1), names := name :: s.names }

/-- Flags up to a colon or a closing parenthesis; each may be named once, and one hyphen turns off those
after it. -/
def readFlags : Nat → (seen : List Char) → (value : Bool) → Flags → Reading (Flags × List Char)
  | 0, _, _, _ => failure
  | fuel + 1, seen, value, f => do
    let c ← peek
    if c = ':' || c = ')' then
      guardThat (seen.head? ≠ some '-')
      return (f, seen)
    guardThat (!seen.contains c)
    advance
    let next (g : Flags) := readFlags fuel (c :: seen) value g
    match c with
    | '-' => readFlags fuel (c :: seen) false f
    | 'i' => next { f with ignoreCase := value }
    | 'm' => next { f with multiLine := value }
    | 's' => next { f with dotAll := value }
    | 'R' => next { f with anyLineEnd := value }
    | 'u' => next { f with unicode := value }
    | 'x' => next { f with verbose := value }
    | 'U' => next f
    | _ => failure

def single : Reading Regex := do
  let f ← flags
  match ← peek with
  | '\\' =>
    match ← escape with
    | .char c => return .one (← underCase (.single c))
    | .set s => return .one s
    | .anchor a => return .anchor a
  | '.' =>
    advance
    if f.dotAll then
      return .one (← complementOf .none)
    return .one (← complementOf (if f.anyLineEnd then .ofChars ['\n', '\r'] else .single '\n'))
  | '^' =>
    advance
    return .anchor (if !f.multiLine then .textStart else if f.anyLineEnd then .anyLineStart else .lineStart)
  | '$' =>
    advance
    return .anchor (if !f.multiLine then .textEnd else if f.anyLineEnd then .anyLineEnd else .lineEnd)
  | c =>
    advance
    return .one (← underCase (.single c))

mutual

def alternatives : Nat → Reading Regex
  | 0 => failure
  | fuel + 1 => do
    let first ← sequence fuel .empty none
    if ← accept ['|'] then return .alt first (← alternatives fuel)
    return first

/-- A sequence: what stands before its last part, and the last part if it may be repeated. -/
def sequence : Nat → Regex → Option Regex → Reading Regex
  | 0, _, _ => failure
  | fuel + 1, before, last => do
    let whole := match last with
      | some r => Regex.seq before r
      | none => before
    skipIgnored
    let quantify (f : Regex → Regex) : Reading Regex := do
      let some r := last | failure
      advance
      discard (accept ['?'])
      sequence fuel before (some (f r))
    match ← peek? with
    | none | some ')' | some '|' => return whole
    | some '*' => quantify (Regex.atLeast 0)
    | some '+' => quantify (Regex.atLeast 1)
    | some '?' => quantify (Regex.between 0 1)
    | some '\x7b' =>
      let some r := last | failure
      let r ← counted r
      discard (accept ['?'])
      sequence fuel before (some r)
    | some '(' =>
      match ← group fuel with
      | some r => sequence fuel whole (some r)
      | none => sequence fuel whole none
    | some '[' => sequence fuel whole (some (.one (← bracket fuel)))
    | some _ => sequence fuel whole (some (← single))

/-- A group, or nothing for one that only sets flags for what follows it. -/
def group : Nat → Reading (Option Regex)
  | 0 => failure
  | fuel + 1 => do
    advance
    skipIgnored
    let outer ← flags
    let body : Reading (Option Regex) := do
      let r ← alternatives fuel
      guardThat (← accept [')'])
      modify fun s => { s with flags := outer }
      return some r
    if (← accept ['?', 'P', '<']) then
      groupName
      body
    else if ← accept ['?', '<'] then
      groupName
      body
    else if ← accept ['?'] then
      let (inner, seen) ← readFlags fuel [] true outer
      modify fun s => { s with flags := inner }
      if ← accept [':'] then body
      else
        advance
        guardThat (!seen.isEmpty)
        return none
    else body

end

end Reading

/-- The expression that a text spells. Each step of the reading consumes a character or goes one level
deeper after one that did, so the fuel suffices. -/
def ofText? (text : List Char) : Option Regex :=
  match (Reading.alternatives (3 * text.length + 3)).run { rest := text } with
  | some (r, s) => if s.rest.isEmpty then some r else none
  | none => none

end Delegation.Regex
