/-
# The notation of patterns

Patterns are written in the usual notation: `.`, `^`, `$`, the escapes `\b \d \s \S \w`, a
backslash before any sign, sets such as `[ab\d]` without ranges, groups `( )`, `(?: )` and `(?! )`,
alternatives with `|`, and the repetitions `?`, `*`, `+` and `{n}`, reluctant with a `?` behind.
Groups are numbered by their opening brackets.  Alternatives that differ in one character only are
a set.
-/
import FilmQuery.Pattern.Basic

namespace FilmQuery.Pattern

/-- What a sequence of patterns makes. -/
def ofList : List Pattern → Pattern
  | [] => .nothing
  | [p] => p
  | p :: rest => .seq p (ofList rest)

/-- What a backslash before `c` stands for in a set: a class, or the sign itself. Letters and digits
that stand for nothing are refused. -/
def memberOfEscape? (c : Char) : Option Member :=
  match c with
  | 'd' => some (.ofClass .digit)
  | 's' => some (.ofClass .blank)
  | 'S' => some (.ofClass .visible)
  | 'w' => some (.ofClass .word)
  | 'n' => some (.char '\n')
  | 't' => some (.char '\t')
  | _ => if c.isAlphanum then none else some (.char c)

/-- The pattern for some members; a character alone is no set. -/
def ofMembers (members : List Member) : Pattern :=
  match members.eraseDups with
  | [.char c] => .char c
  | several => .oneOf several

/-- What a backslash before `c` stands for outside of a set, where it can be the boundary too. -/
def ofEscape? (c : Char) : Option Pattern :=
  if c = 'b' then some .boundary else (memberOfEscape? c).map fun member => ofMembers [member]

/-- Reads the members of a set up to its closing bracket. -/
def readMembers : List Char → Option (List Member × List Char)
  | [] => none
  | ']' :: rest => some ([], rest)
  | '\\' :: c :: rest =>
    match memberOfEscape? c, readMembers rest with
    | some member, some (members, after) => some (member :: members, after)
    | _, _ => none
  | '-' :: ']' :: rest => some ([.char '-'], rest)
  | '-' :: _ => none
  | c :: rest => (readMembers rest).map fun (members, after) => (.char c :: members, after)

/-- Reads a set after its opening bracket. A closing bracket and a hyphen that come first are
members. -/
def readSet (text : List Char) : Option (Pattern × List Char) :=
  let (first, rest) : List Member × List Char :=
    match text with
    | ']' :: rest => ([.char ']'], rest)
    | '-' :: rest => ([.char '-'], rest)
    | rest => ([], rest)
  match rest with
  | '^' :: _ =>
    if first.isEmpty then none
    else (readMembers rest).map fun (members, after) => (ofMembers (first ++ members), after)
  | _ => (readMembers rest).map fun (members, after) => (ofMembers (first ++ members), after)

/-- Splits a `?` off that makes a repetition reluctant: whether the repetition is eager. -/
def readEager : List Char → Bool × List Char
  | '?' :: rest => (false, rest)
  | rest => (true, rest)

/-- Reads a count between braces, after the opening one. -/
def readCount? (text : List Char) : Option (Nat × List Char) :=
  match text.takeWhile Char.isDigit, text.dropWhile Char.isDigit with
  | d :: digits, '\x7d' :: rest =>
    some ((d :: digits).foldl (fun value c => 10 * value + (c.toNat - 48)) 0, rest)
  | _, _ => none

/-- Reads how often what comes before is repeated, at least and at most. -/
def readTimes? : List Char → Option ((Nat × Option Nat) × List Char)
  | '?' :: rest => some ((0, some 1), rest)
  | '*' :: rest => some ((0, none), rest)
  | '+' :: rest => some ((1, none), rest)
  | '\x7b' :: rest => (readCount? rest).map fun (n, after) => ((n, some n), after)
  | _ => none

/-- Whether a pattern only looks at its place. -/
def isAnchor : Pattern → Bool
  | .boundary | .atStart | .atEnd => true
  | _ => false

/-- Whether a text begins with an anchor. -/
def beginsWithAnchor : List Char → Bool
  | '^' :: _ | '$' :: _ | '\\' :: 'b' :: _ => true
  | _ => false

/-- Applies the repetition that follows a pattern, if one does. Nothing is repeated that is `bare`:
an anchor without brackets, or a repetition. -/
def readRepetition (bare : Bool) (p : Pattern) (text : List Char) : Option (Pattern × List Char) :=
  match readTimes? text with
  | none => some (p, text)
  | some ((least, most), rest) =>
    let (eager, after) := readEager rest
    if bare || (readTimes? after).isSome then none
    else some (.repeated least most eager p, after)

/-- The parts of a pattern that come one after the other. -/
def parts : Pattern → List Pattern
  | .seq a b => parts a ++ parts b
  | .nothing => []
  | p => [p]

/-- The members of the set that a pattern for one character is, if it is one. -/
def members? : Pattern → Option (List Member)
  | .char c => some [.char c]
  | .oneOf members => some members
  | _ => none

/-- Takes off what the first sequence of single characters and anchors shares with all others. -/
def splitShared : List Pattern → List (List Pattern) → List Pattern × List (List Pattern)
  | p :: first, others =>
    if (p.isAnchor || (members? p).isSome || p == .any) && others.all (·.head? == some p) then
      let (shared, left) := splitShared first (others.map (·.drop 1))
      (p :: shared, left)
    else ([], (p :: first) :: others)
  | [], others => ([], [] :: others)

/-- The members of the set that a sequence is, if it is a single character. -/
def setOf? : List Pattern → Option (List Member)
  | [p] => members? p
  | _ => none

/-- The members of the set that alternative sequences are, if each of them is one. -/
def unitedSet? (sequences : List (List Pattern)) : Option (List Member) :=
  (sequences.mapM setOf?).map fun sets => sets.flatten.eraseDups

/-- The first of some patterns or else one of the others. -/
def anyOf : List Pattern → Pattern
  | [] => .nothing
  | [p] => p
  | p :: rest => .alt p (anyOf rest)

/-- What alternative sequences make. If they differ in one character only they share all else and
end in a set; otherwise they are tried one after the other. -/
def ofAlternatives (first : List Pattern) (others : List (List Pattern)) : Pattern :=
  if others.isEmpty then ofList first
  else
    let (shared, left) := splitShared first others
    match unitedSet? left with
    | some members => ofList (shared ++ [.oneOf members])
    | none => anyOf ((first :: others).map ofList)

mutual

/-- Reads alternatives up to a closing bracket or the end; `groups` groups have been opened so
far. Gives the sequences, the number of groups opened by then, and the rest of the text. -/
def readAlternatives :
    (fuel groups : Nat) → List Char → Option (List (List Pattern) × Nat × List Char)
  | 0, _, _ => none
  | fuel + 1, groups, text =>
    match readSequence fuel groups text with
    | none => none
    | some (sequence, groups, '|' :: rest) =>
      (readAlternatives fuel groups rest).map fun (others, groups, after) =>
        (sequence :: others, groups, after)
    | some (sequence, groups, after) => some ([sequence], groups, after)

/-- Reads the parts of one alternative. -/
def readSequence : (fuel groups : Nat) → List Char → Option (List Pattern × Nat × List Char)
  | 0, _, _ => none
  | fuel + 1, groups, text =>
    match text with
    | [] => some ([], groups, [])
    | ')' :: _ => some ([], groups, text)
    | '|' :: _ => some ([], groups, text)
    | _ =>
      match readPart fuel groups text with
      | none => none
      | some (part, groups, after) =>
        match readRepetition (beginsWithAnchor text) part after with
        | none => none
        | some (whole, after) =>
          (readSequence fuel groups after).map fun (sequence, groups, rest) =>
            (whole.parts ++ sequence, groups, rest)

/-- Reads the inside of a bracket and the closing bracket. -/
def readBody : (fuel groups : Nat) → List Char → Option (Pattern × Nat × List Char)
  | 0, _, _ => none
  | fuel + 1, groups, text =>
    match readAlternatives fuel groups text with
    | some (first :: others, groups, ')' :: after) =>
      some (ofAlternatives first others, groups, after)
    | _ => none

/-- Reads one part without its repetition. -/
def readPart : (fuel groups : Nat) → List Char → Option (Pattern × Nat × List Char)
  | 0, _, _ => none
  | fuel + 1, groups, text =>
    match text with
    | [] => none
    | '(' :: '?' :: ':' :: rest => readBody fuel groups rest
    | '(' :: '?' :: '!' :: rest =>
      (readBody fuel groups rest).map fun (body, groups, after) => (.absent body, groups, after)
    | '(' :: '?' :: _ => none
    | '(' :: rest =>
      (readBody fuel (groups + 1) rest).map fun (body, inner, after) =>
        (.group (groups + 1) body, inner, after)
    | '[' :: rest => (readSet rest).map fun (set, after) => (set, groups, after)
    | '\\' :: c :: rest => (ofEscape? c).map fun p => (p, groups, rest)
    | '\\' :: [] => none
    | '.' :: rest => some (.any, groups, rest)
    | '^' :: rest => some (.atStart, groups, rest)
    | '$' :: rest => some (.atEnd, groups, rest)
    | c :: rest => if (readTimes? text).isSome then none else some (.char c, groups, rest)

end

/-- The pattern that a text writes. A text is read in fewer steps than four for each of its
characters. -/
def read? (text : List Char) : Option Pattern :=
  match readAlternatives (4 * text.length + 4) 0 text with
  | some (first :: others, _, []) => some (ofAlternatives first others)
  | _ => none

end FilmQuery.Pattern
