import IncrementalRegex.CaseFold
import IncrementalRegex.Cursor
import IncrementalRegex.Token.Table

namespace IncrementalRegex

/-- A character that is a key of `pairs` is looked up together with its follower; if the two are
nothing there, or it is no key, `alone` decides on the character alone. -/
structure Lexicon where
  alone : KindTable := {}
  pairs : List (Char × KindTable)
  /-- The kind of ordinary characters. -/
  literalKind : TokenKind := .literal
  ignoreCase : Bool := false

/-- The character that the letter of a control escape stands for. -/
def controlChar : Char → Char
  | 'a' => '\x07'
  | 'b' => '\x08'
  | 'f' => '\x0c'
  | 'n' => '\n'
  | 'r' => '\r'
  | 't' => '\t'
  | 'v' => '\x0b'
  | '0' => '\x00'
  | c => c

/-- The character of a code point, surrogates excepted. -/
def charOfCode? (n : Nat) : Option Char :=
  if n.isValidChar then some (Char.ofNat n) else none

namespace Lexicon

def expression (d : Dialect) (ignoreCase : Bool) : Lexicon where
  alone := .ofDialect d
  pairs := [('\\', .escapedOfDialect d)]
  ignoreCase := ignoreCase

/-- Case is kept in brackets, so that the ends of ranges keep their order. -/
def bracket (d : Dialect) : Lexicon where
  alone := .inBracket
  pairs := ('[', .bracketOpener) ::
    if d = .ecmascript then [('\\', .ecmascriptInBracketEscaped)] else []
  literalKind := .bracketLiteral

def brace (d : Dialect) : Lexicon where
  alone := .inBrace
  pairs := [('\\', .inBraceEscaped d)]

/-- Only one dialect has special groups. -/
def group (d : Dialect) : Lexicon where
  pairs := if d = .ecmascript then [('?', .groupOpener)] else []

def literal (l : Lexicon) (c : Char) : Token := .ofChar l.literalKind (foldIf l.ignoreCase c)

/-- The token of a kind found for `value`, which has just been read. -/
def tokenOf (l : Lexicon) (kind : TokenKind) (value : Char) (c : Cursor) :
    Except PatternError (Token × Cursor) :=
  match kind with
  | .simpleBackRef => .ok (.ofCount .backRef ((digitValue? 10 value).getD 0), c)
  | .compoundBackRef =>
    let n := c.numberAfter value 10
    .ok (.ofCount .backRef n.1, n.2)
  | .count =>
    let n := c.numberAfter value 10
    .ok (.ofCount .count n.1, n.2)
  | .hexEscape =>
    match c.digits? 2 16 with
    | some (n, c) => .ok (l.literal (Char.ofNat n), c)
    | none => .ok (l.literal value, c)
  | .unicodeEscape =>
    match c.digits? 4 16 with
    | some (n, c) =>
      match charOfCode? n with
      | some x => .ok (l.literal x, c)
      | none => c.fail .escapeSequence
    | none => .ok (l.literal value, c)
  | .controlChar => .ok (l.literal (IncrementalRegex.controlChar value), c)
  | .control =>
    match c.next? with
    | some (x, c) =>
      if x.isAlpha then .ok (l.literal (Char.ofNat (x.toNat % 32)), c) else c.fail .escapeSequence
    | none => c.fail .escapeSequence
  | .className | .equiv | .collate =>
    match c.through [value, ']'] with
    | (span, true, c) => .ok (.ofString kind span, c)
    | (_, false, c) => c.fail .bracket
  | .literal | .bracketLiteral => .ok (l.literal value, c)
  | _ => .ok (.ofChar kind value, c)

/-- What `key` and the character after it stand for together. -/
def escape? (l : Lexicon) (key : Char) (c : Cursor) : Option (TokenKind × Char × Cursor) := do
  let table ← l.pairs.lookup key
  let (follower, c) ← c.next?
  let kind ← table.kind? follower
  return (kind, follower, c)

/-- The next token and the place after it, or `none` where the tables have nothing to say. -/
def read (l : Lexicon) (c : Cursor) : Except PatternError (Option (Token × Cursor)) :=
  match c.next? with
  | none => .ok none
  | some (x, c) =>
    match l.escape? x c with
    | some (kind, value, c) => (l.tokenOf kind value c).map some
    | none =>
      match l.alone.kind? x with
      | some kind => (l.tokenOf kind x c).map some
      | none => .ok none

/-- Whether a token of this kind is no more than the character it is found for. -/
def standsForItself : TokenKind → Bool
  | .simpleBackRef | .compoundBackRef | .count | .hexEscape | .unicodeEscape | .controlChar
  | .control | .className | .equiv | .collate | .literal | .bracketLiteral => false
  | _ => true

/-- What comes of a kind found for `x`, which has just been read. -/
inductive Makes (l : Lexicon) (x : Char) (c : Cursor) : TokenKind → Token → Cursor → Prop where
  | simpleBackRef : Makes l x c .simpleBackRef (.ofCount .backRef ((digitValue? 10 x).getD 0)) c
  | compoundBackRef {n : Nat} {c' : Cursor} (number : c.numberAfter x 10 = (n, c')) :
      Makes l x c .compoundBackRef (.ofCount .backRef n) c'
  | count {n : Nat} {c' : Cursor} (number : c.numberAfter x 10 = (n, c')) :
      Makes l x c .count (.ofCount .count n) c'
  | hex {n : Nat} {c' : Cursor} (digits : c.digits? 2 16 = some (n, c')) :
      Makes l x c .hexEscape (l.literal (Char.ofNat n)) c'
  | noHex (digits : c.digits? 2 16 = none) : Makes l x c .hexEscape (l.literal x) c
  | unicode {n : Nat} {y : Char} {c' : Cursor} (digits : c.digits? 4 16 = some (n, c'))
      (code : charOfCode? n = some y) : Makes l x c .unicodeEscape (l.literal y) c'
  | noUnicode (digits : c.digits? 4 16 = none) : Makes l x c .unicodeEscape (l.literal x) c
  | controlChar : Makes l x c .controlChar (l.literal (IncrementalRegex.controlChar x)) c
  | control {y : Char} {c' : Cursor} (next : c.next? = some (y, c')) (letter : y.isAlpha) :
      Makes l x c .control (l.literal (Char.ofNat (y.toNat % 32))) c'
  | named {kind : TokenKind} {span : List Char} {c' : Cursor}
      (names : kind = .className ∨ kind = .equiv ∨ kind = .collate)
      (closed : c.through [x, ']'] = (span, true, c')) : Makes l x c kind (.ofString kind span) c'
  | literal {kind : TokenKind} (ordinary : kind = .literal ∨ kind = .bracketLiteral) :
      Makes l x c kind (l.literal x) c
  | itself {kind : TokenKind} (itself : standsForItself kind) :
      Makes l x c kind (.ofChar kind x) c

theorem through_eq_ok {kind : TokenKind} {x : Char} {c c' : Cursor} {t : Token}
    (h : (match c.through [x, ']'] with
      | (span, true, c) => .ok (.ofString kind span, c)
      | (_, false, c) => c.fail .bracket : Except PatternError (Token × Cursor)) = .ok (t, c')) :
    ∃ span, c.through [x, ']'] = (span, true, c') ∧ t = .ofString kind span := by
  generalize c.through [x, ']'] = found at h ⊢
  obtain ⟨span, closed, d⟩ := found
  cases closed with
  | false => cases h
  | true =>
    cases h
    exact ⟨span, rfl, rfl⟩

theorem tokenOf_eq_ok_iff {l : Lexicon} {kind : TokenKind} {x : Char} {c c' : Cursor} {t : Token} :
    l.tokenOf kind x c = .ok (t, c') ↔ l.Makes x c kind t c' := by
  constructor
  · intro h
    unfold tokenOf at h
    cases kind
    case simpleBackRef => cases h; exact .simpleBackRef
    case compoundBackRef => cases h; exact .compoundBackRef rfl
    case count => cases h; exact .count rfl
    case hexEscape =>
      dsimp only at h
      cases hdigits : c.digits? 2 16 with
      | none =>
        rw [hdigits] at h
        cases h
        exact .noHex hdigits
      | some p =>
        rw [hdigits] at h
        cases h
        exact .hex hdigits
    case unicodeEscape =>
      dsimp only at h
      cases hdigits : c.digits? 4 16 with
      | none =>
        rw [hdigits] at h
        cases h
        exact .noUnicode hdigits
      | some p =>
        rw [hdigits] at h
        dsimp only at h
        cases hcode : charOfCode? p.1 with
        | none =>
          rw [hcode] at h
          cases h
        | some y =>
          rw [hcode] at h
          cases h
          exact .unicode hdigits hcode
    case controlChar => cases h; exact .controlChar
    case control =>
      dsimp only at h
      cases hnext : c.next? with
      | none =>
        rw [hnext] at h
        cases h
      | some p =>
        rw [hnext] at h
        dsimp only at h
        by_cases hletter : p.1.isAlpha
        · rw [if_pos hletter] at h
          cases h
          exact .control hnext hletter
        · rw [if_neg hletter] at h
          cases h
    case className =>
      obtain ⟨span, hclosed, rfl⟩ := through_eq_ok h
      exact .named (.inl rfl) hclosed
    case equiv =>
      obtain ⟨span, hclosed, rfl⟩ := through_eq_ok h
      exact .named (.inr (.inl rfl)) hclosed
    case collate =>
      obtain ⟨span, hclosed, rfl⟩ := through_eq_ok h
      exact .named (.inr (.inr rfl)) hclosed
    case literal => cases h; exact .literal (.inl rfl)
    case bracketLiteral => cases h; exact .literal (.inr rfl)
    all_goals cases h; exact .itself rfl
  · intro h
    cases h with
    | simpleBackRef | controlChar => rfl
    | compoundBackRef number | count number => rw [tokenOf, number]
    | hex digits | noHex digits | noUnicode digits => rw [tokenOf, digits]
    | unicode digits code =>
      rw [tokenOf, digits]
      dsimp only
      rw [code]
    | control next letter =>
      rw [tokenOf, next]
      exact if_pos letter
    | named names closed => rcases names with rfl | rfl | rfl <;> rw [tokenOf, closed]
    | literal ordinary => rcases ordinary with rfl | rfl <;> rfl
    | itself itself =>
      cases kind <;> first | rfl | cases itself

theorem remaining_tokenOf {l : Lexicon} {kind : TokenKind} {x : Char} {c c' : Cursor} {t : Token}
    (h : l.tokenOf kind x c = .ok (t, c')) : c'.remaining ≤ c.remaining := by
  cases tokenOf_eq_ok_iff.mp h with
  | simpleBackRef | noHex | noUnicode | controlChar | literal | itself => exact Nat.le_refl _
  | compoundBackRef number | count number =>
    have := Cursor.remaining_numberAfter c x 10
    rwa [number] at this
  | hex digits | unicode digits => exact Cursor.remaining_digits digits
  | control next =>
    have := Cursor.remaining_next next
    omega
  | named _ closed =>
    have := Cursor.remaining_through c [x, ']']
    rwa [closed] at this

theorem remaining_escape {l : Lexicon} {x y : Char} {c c' : Cursor} {kind : TokenKind}
    (h : l.escape? x c = some (kind, y, c')) : c'.remaining < c.remaining := by
  simp only [escape?, Option.bind_eq_bind, Option.bind_eq_some_iff, Option.pure_def] at h
  obtain ⟨_, _, ⟨_, c'⟩, hn, _, _, h⟩ := h
  cases h
  exact Nat.le_of_eq (Cursor.remaining_next hn)

/-- A token is read for a key and the character after it, or for one character alone. -/
inductive Reads (l : Lexicon) (c : Cursor) : Token → Cursor → Prop where
  | pair {x y : Char} {d e c' : Cursor} {kind : TokenKind} {t : Token}
      (next : c.next? = some (x, d)) (escape : l.escape? x d = some (kind, y, e))
      (token : l.tokenOf kind y e = .ok (t, c')) : Reads l c t c'
  | alone {x : Char} {d c' : Cursor} {kind : TokenKind} {t : Token}
      (next : c.next? = some (x, d)) (escape : l.escape? x d = none)
      (entry : l.alone.kind? x = some kind) (token : l.tokenOf kind x d = .ok (t, c')) :
      Reads l c t c'

theorem map_some_eq_ok {ε β : Type} {x : Except ε β} {y : β} :
    x.map some = .ok (some y) ↔ x = .ok y := by
  cases x <;> simp [Except.map]

theorem read_eq_some_iff {l : Lexicon} {c c' : Cursor} {t : Token} :
    l.read c = .ok (some (t, c')) ↔ l.Reads c t c' := by
  constructor
  · intro h
    unfold read at h
    cases hnext : c.next? with
    | none =>
      rw [hnext] at h
      cases h
    | some p =>
      obtain ⟨x, d⟩ := p
      rw [hnext] at h
      dsimp only at h
      cases hescape : l.escape? x d with
      | some q =>
        rw [hescape] at h
        exact .pair hnext hescape (map_some_eq_ok.mp h)
      | none =>
        rw [hescape] at h
        dsimp only at h
        cases hentry : l.alone.kind? x with
        | some kind =>
          rw [hentry] at h
          exact .alone hnext hescape hentry (map_some_eq_ok.mp h)
        | none =>
          rw [hentry] at h
          cases h
  · intro h
    cases h with
    | pair next escape token =>
      simp only [read, next, escape]
      exact map_some_eq_ok.mpr token
    | alone next escape entry token =>
      simp only [read, next, escape, entry]
      exact map_some_eq_ok.mpr token

theorem remaining_read {l : Lexicon} {c c' : Cursor} {t : Token}
    (h : l.read c = .ok (some (t, c'))) : c'.remaining < c.remaining := by
  cases read_eq_some_iff.mp h with
  | pair next escape token =>
    have hx := Cursor.remaining_next next
    have hy := remaining_escape escape
    have ht := remaining_tokenOf token
    omega
  | alone next _ _ token =>
    have hx := Cursor.remaining_next next
    have ht := remaining_tokenOf token
    omega

end Lexicon
end IncrementalRegex
