import IncrementalRegex.Token.Stream
import Mathlib.Tactic.ByContra
import Mathlib.Tactic.SplitIfs

namespace IncrementalRegex

theorem map_eq_ok {ε β γ : Type} {x : Except ε β} {f : β → γ} {y : γ} :
    x.map f = .ok y ↔ ∃ a, x = .ok a ∧ f a = y := by
  cases x <;> simp [Except.map]

namespace Queue

variable {β : Type}

theorem pop_eq_none_iff {q : Queue β} : q.pop? = none ↔ q = {} := by
  obtain ⟨items⟩ := q
  cases items <;> simp [pop?]

theorem pop_eq_some_iff {q q' : Queue β} {x : β} :
    q.pop? = some (x, q') ↔ q.items = x :: q'.items := by
  obtain ⟨items⟩ := q
  obtain ⟨items'⟩ := q'
  cases items <;> simp [pop?]

end Queue

namespace Brace

variable {d : Dialect} {c c' : Cursor} {b : Bounds}

/-- A count that may be written out. -/
def Written (t : Token) : Prop := t.kind = .count ∧ t.count ≤ largestWritten

theorem count_eq_ok_iff {t : Token} {n : Nat} : count t c = .ok n ↔ Written t ∧ t.count = n := by
  have hif : (t.hasKind .count && t.count ≤ largestWritten) = true ↔ Written t := by
    simp [Written, Token.hasKind]
  by_cases ht : Written t
  · rw [count, if_pos (hif.mpr ht)]
    simp [ht]
  · rw [count, if_neg fun h => ht (hif.mp h)]
    simp [ht, Cursor.fail]

theorem bounds_eq_some_iff {lower upper : Nat} :
    bounds lower upper c = .ok (some (b, c')) ↔ Bounds.between? lower upper = some b ∧ c' = c := by
  unfold bounds
  cases Bounds.between? lower upper with
  | none => simp [Cursor.fail]
  | some b' => simp [eq_comm]

/-- The three forms that bounds can have. -/
inductive Reads (d : Dialect) (c : Cursor) : Bounds → Cursor → Prop where
  | exactly {t u : Token} {c₁ c₂ : Cursor} {b : Bounds} (count : next d c = .ok (t, c₁))
      (written : Written t) (close : next d c₁ = .ok (u, c₂)) (closes : u.kind = .rBrace)
      (bounds : Bounds.between? t.count t.count = some b) : Reads d c b c₂
  | atLeast {t u v : Token} {c₁ c₂ c₃ : Cursor} {b : Bounds} (lower : next d c = .ok (t, c₁))
      (written : Written t) (comma : next d c₁ = .ok (u, c₂)) (separates : u.kind = .comma)
      (close : next d c₂ = .ok (v, c₃)) (closes : v.kind = .rBrace)
      (bounds : Bounds.between? t.count unbounded = some b) : Reads d c b c₃
  | between {t u v w : Token} {c₁ c₂ c₃ c₄ : Cursor} {b : Bounds} (lower : next d c = .ok (t, c₁))
      (written : Written t) (comma : next d c₁ = .ok (u, c₂)) (separates : u.kind = .comma)
      (upper : next d c₂ = .ok (v, c₃)) (writtenUpper : Written v)
      (close : next d c₃ = .ok (w, c₄)) (closes : w.kind = .rBrace)
      (bounds : Bounds.between? t.count v.count = some b) : Reads d c b c₄

theorem atEnd_of_next {p : Token × Cursor} (h : next d c = .ok p) : c.atEnd = false := by
  by_contra hend
  have hnext : c.next? = none := by
    unfold Cursor.next?
    split <;> simp_all [Cursor.atEnd]
  obtain ⟨_ | q, hread, h⟩ := bind_eq_ok.1 h
  · cases h
  · rw [Lexicon.read, hnext] at hread
    cases hread

theorem read_eq_some_iff : read d c = .ok (some (b, c')) ↔ Reads d c b c' := by
  constructor
  · intro h
    unfold read at h
    split at h
    · cases h
    · obtain ⟨⟨t, c₁⟩, first, h⟩ := bind_eq_ok.1 h
      obtain ⟨lower, hlower, h⟩ := bind_eq_ok.1 h
      obtain ⟨⟨u, c₂⟩, second, h⟩ := bind_eq_ok.1 h
      obtain ⟨written, rfl⟩ := count_eq_ok_iff.mp hlower
      dsimp only at h
      cases hu : u.kind <;> rw [hu] at h
      case rBrace =>
        obtain ⟨bounds, rfl⟩ := bounds_eq_some_iff.mp h
        exact .exactly first written second hu bounds
      case comma =>
        obtain ⟨⟨v, c₃⟩, third, h⟩ := bind_eq_ok.1 h
        dsimp only at h
        split_ifs at h with closes
        · obtain ⟨bounds, rfl⟩ := bounds_eq_some_iff.mp h
          exact .atLeast first written second hu third (eq_of_beq closes) bounds
        · obtain ⟨upper, hupper, h⟩ := bind_eq_ok.1 h
          obtain ⟨⟨w, c₄⟩, fourth, h⟩ := bind_eq_ok.1 h
          obtain ⟨writtenUpper, rfl⟩ := count_eq_ok_iff.mp hupper
          dsimp only at h
          split_ifs at h with closes
          · obtain ⟨bounds, rfl⟩ := bounds_eq_some_iff.mp h
            exact .between first written second hu third writtenUpper fourth
              (eq_of_beq closes) bounds
          · cases h
      all_goals cases h
  · intro h
    cases h with
    | exactly first written second closes bounds =>
      simp only [read, atEnd_of_next first, first, count_eq_ok_iff.mpr ⟨written, rfl⟩, second,
        closes, bind, Except.bind]
      exact bounds_eq_some_iff.mpr ⟨bounds, rfl⟩
    | atLeast first written second separates third closes bounds =>
      simp only [read, atEnd_of_next first, first, count_eq_ok_iff.mpr ⟨written, rfl⟩, second,
        separates, third, Token.hasKind, closes, bind, Except.bind]
      exact bounds_eq_some_iff.mpr ⟨bounds, rfl⟩
    | between first written second separates third writtenUpper fourth closes bounds =>
      simp only [read, atEnd_of_next first, first, count_eq_ok_iff.mpr ⟨written, rfl⟩, second,
        separates, third, count_eq_ok_iff.mpr ⟨writtenUpper, rfl⟩, fourth, Token.hasKind, closes,
        writtenUpper.1, bind, Except.bind]
      exact bounds_eq_some_iff.mpr ⟨bounds, rfl⟩

end Brace

namespace ExpressionReader

variable {r r' : ExpressionReader} {c c' : Cursor} {t : Token}

def lexicon (r : ExpressionReader) : Lexicon := .expression r.dialect r.ignoreCase

/-- The tokens that a reader can return, and where they leave it. -/
inductive Reads (r : ExpressionReader) (c : Cursor) : Token → ExpressionReader → Cursor → Prop where
  | known {t : Token} {pending : Queue Token} (h : r.pending.pop? = some (t, pending)) :
      Reads r c t { r with pending } c
  | single {t : Token} {d e : Cursor} (empty : r.pending = {})
      (first : r.lexicon.read c = .ok (some (t, d))) (literal : t.hasKind .literal)
      (later : ordinaryRun r.lexicon d = .ok ([], true, e)) :
      Reads r c (.ofChar .literal t.char) r e
  | cut {t : Token} {d e : Cursor} {run : List Char} {last : Char} (empty : r.pending = {})
      (first : r.lexicon.read c = .ok (some (t, d))) (literal : t.hasKind .literal)
      (later : ordinaryRun r.lexicon d = .ok (run ++ [last], true, e)) :
      Reads r c (.ofString .stringLiteral (t.char :: run))
        { r with pending := r.pending.push (.ofChar .literal last) } e
  | whole {t : Token} {d e : Cursor} {run : List Char} (empty : r.pending = {})
      (first : r.lexicon.read c = .ok (some (t, d))) (literal : t.hasKind .literal)
      (later : ordinaryRun r.lexicon d = .ok (run, false, e)) :
      Reads r c (.ofString .stringLiteral (t.char :: run)) r e
  | sign {t : Token} {d : Cursor} (empty : r.pending = {})
      (first : r.lexicon.read c = .ok (some (t, d))) (literal : t.hasKind .literal = false)
      (bounds : bounds? r.dialect t d = .ok none) : Reads r c t r d
  | repetition {t : Token} {d e : Cursor} {b : Bounds} (empty : r.pending = {})
      (first : r.lexicon.read c = .ok (some (t, d))) (literal : t.hasKind .literal = false)
      (bounds : bounds? r.dialect t d = .ok (some (b, e))) :
      Reads r c ⟨.repLower, t.char, b.lower, []⟩
        { r with pending := r.pending.push (.ofCount .repUpper b.upper) } e

theorem read_eq_some_iff : r.read c = .ok (some (t, r', c')) ↔ r.Reads c t r' c' := by
  constructor
  · intro h
    unfold read at h
    cases hp : r.pending.pop? with
    | some p =>
      rw [hp] at h
      cases h
      exact .known hp
    | none =>
      have empty := Queue.pop_eq_none_iff.mp hp
      rw [hp] at h
      obtain ⟨_ | ⟨u, d⟩, first, h⟩ := bind_eq_ok.1 h
      · cases h
      · dsimp only at h
        split_ifs at h with literal
        · obtain ⟨⟨run, repeated, e⟩, later, h⟩ := bind_eq_ok.1 h
          cases repeated with
          | false =>
            cases h
            exact .whole empty first literal later
          | true =>
            rcases List.eq_nil_or_concat run with rfl | ⟨init, last, rfl⟩
            · cases h
              exact .single empty first literal later
            · rw [List.concat_eq_append] at later h
              simp only [List.getLast?_concat, List.dropLast_concat] at h
              cases h
              exact .cut empty first literal later
        · have literal := eq_false_of_ne_true literal
          obtain ⟨_ | ⟨b, e⟩, bounds, h⟩ := bind_eq_ok.1 h
          · cases h
            exact .sign empty first literal bounds
          · cases h
            exact .repetition empty first literal bounds
  · intro h
    cases h with
    | known hp => simp [read, hp]
    | single empty first literal later | whole empty first literal later =>
      have hp := Queue.pop_eq_none_iff.mpr empty
      rw [lexicon] at first later
      simp only [read, hp, first, later, literal, bind, Except.bind]
      rfl
    | cut empty first literal later =>
      have hp := Queue.pop_eq_none_iff.mpr empty
      rw [lexicon] at first later
      simp only [read, hp, first, later, literal, bind, Except.bind]
      simp only [List.getLast?_concat, List.dropLast_concat]
      rfl
    | sign empty first literal bounds | repetition empty first literal bounds =>
      have hp := Queue.pop_eq_none_iff.mpr empty
      rw [lexicon] at first
      simp only [read, hp, first, literal, bounds, bind, Except.bind]
      rfl

end ExpressionReader

namespace BracketReader

variable {d : Dialect} {r r' : BracketReader} {c c' : Cursor} {t : Token}

/-- A token held back comes first; else one is read. -/
theorem raw_eq_some_iff {ahead : Queue Token} :
    r.raw d c = .ok (some (t, ahead, c')) ↔
      r.ahead.items = t :: ahead.items ∧ c' = c ∨
        r.ahead = {} ∧ ahead = {} ∧ (Lexicon.bracket d).read c = .ok (some (t, c')) := by
  constructor
  · intro h
    unfold raw at h
    cases hp : r.ahead.pop? with
    | some p =>
      rw [hp] at h
      cases h
      exact .inl ⟨Queue.pop_eq_some_iff.mp hp, rfl⟩
    | none =>
      have empty := Queue.pop_eq_none_iff.mp hp
      rw [hp] at h
      obtain ⟨_ | ⟨u, e⟩, hr, h⟩ := bind_eq_ok.1 h <;> cases h
      exact .inr ⟨empty, empty, hr⟩
  · intro hm
    rcases hm with ⟨hp, rfl⟩ | ⟨empty, rfl, hr⟩
    · simp only [raw, Queue.pop_eq_some_iff.mpr hp]
    · simp only [raw, hr, empty, bind, Except.bind]
      rfl

/-- The tokens that a reader can return, and where they leave it. -/
inductive Reads (d : Dialect) (r : BracketReader) (c : Cursor) :
    Token → BracketReader → Cursor → Prop where
  | plain {u : Token} {ahead : Queue Token} {e : Cursor}
      (raw : r.raw d c = .ok (some (u, ahead, e)))
      (kind : (r.place.meaning u).hasKind .rangeDash = false) :
      Reads d r c (r.place.meaning u) ⟨r.place.after (r.place.meaning u), ahead⟩ e
  | lastDash {u : Token} {ahead : Queue Token} {e : Cursor}
      (raw : r.raw d c = .ok (some (u, ahead, e)))
      (kind : (r.place.meaning u).hasKind .rangeDash)
      (next : (Lexicon.bracket d).read e = .ok none) :
      Reads d r c (r.place.meaning u) ⟨r.place.after (r.place.meaning u), ahead⟩ e
  | dash {u v : Token} {ahead : Queue Token} {e e' : Cursor}
      (raw : r.raw d c = .ok (some (u, ahead, e)))
      (kind : (r.place.meaning u).hasKind .rangeDash)
      (next : (Lexicon.bracket d).read e = .ok (some (v, e')))
      (closing : v.hasKind .rBracket = false) :
      Reads d r c (r.place.meaning u) ⟨r.place.after (r.place.meaning u), ahead.push v⟩ e'
  | literalDash {u v : Token} {ahead : Queue Token} {e e' : Cursor}
      (raw : r.raw d c = .ok (some (u, ahead, e)))
      (kind : (r.place.meaning u).hasKind .rangeDash)
      (next : (Lexicon.bracket d).read e = .ok (some (v, e'))) (closing : v.hasKind .rBracket) :
      Reads d r c (.ofChar .bracketLiteral '-')
        ⟨r.place.after (.ofChar .bracketLiteral '-'), ahead.push v⟩ e'

theorem read_eq_some_iff : r.read d c = .ok (some (t, r', c')) ↔ r.Reads d c t r' c' := by
  constructor
  · intro h
    obtain ⟨_ | ⟨u, ahead, e⟩, raw, h⟩ := bind_eq_ok.1 h
    · cases h
    · dsimp only at h
      split_ifs at h with kind
      · obtain ⟨_ | ⟨v, e'⟩, next, h⟩ := bind_eq_ok.1 h
        · cases h
          exact .lastDash raw kind next
        · dsimp only at h
          cases closing : v.hasKind .rBracket <;> rw [closing] at h <;> cases h
          · exact .dash raw kind next closing
          · exact .literalDash raw kind next closing
      · cases h
        exact .plain raw (eq_false_of_ne_true kind)
  · intro h
    cases h with
    | plain raw kind =>
      simp only [read, raw, kind, bind, Except.bind]
      rfl
    | lastDash raw kind next =>
      simp only [read, raw, kind, next, bind, Except.bind]
      rfl
    | dash raw kind next closing | literalDash raw kind next closing =>
      simp only [read, raw, kind, next, closing, bind, Except.bind]
      rfl

end BracketReader

namespace TokenReader

variable {s s' : TokenReader} {t : Token}

theorem read_eq_some_iff : s.read = .ok (some (t, s')) ↔
    ∃ u, s.readInContext = .ok (some (t, u)) ∧ u.nesting.closesNothing t.kind = false ∧
      s' = { u with nesting := u.nesting.after t.kind, context := u.context.after t.kind } := by
  constructor
  · intro h
    obtain ⟨_ | ⟨t', u⟩, hr, h⟩ := bind_eq_ok.1 h
    · cases h
    · dsimp only at h
      cases hn : u.nesting.closesNothing t'.kind with
      | true =>
        rw [hn] at h
        cases h
      | false =>
        rw [hn] at h
        cases h
        exact ⟨u, hr, hn, rfl⟩
  · intro hm
    obtain ⟨u, hr, hn, rfl⟩ := hm
    simp only [read, hr, hn, bind, Except.bind]
    rfl

/-- The readers that a token can come from. -/
inductive Reads (s : TokenReader) : Token → TokenReader → Prop where
  | expression {t : Token} {r : ExpressionReader} {c : Cursor} (context : s.context = .expression)
      (h : s.expression.read s.cursor = .ok (some (t, r, c))) :
      Reads s t { s with expression := r, cursor := c }
  | bracket {t : Token} {r : BracketReader} {c : Cursor} (context : s.context = .bracket)
      (h : s.bracket.read s.dialect s.cursor = .ok (some (t, r, c))) :
      Reads s t { s with bracket := r, cursor := c }
  | group {t : Token} {c : Cursor} (context : s.context = .subexpression)
      (h : (Lexicon.group s.dialect).read s.cursor = .ok (some (t, c))) :
      Reads s t { s with cursor := c }
  | element {t : Token} {r : ExpressionReader} {c : Cursor} (context : s.context = .subexpression)
      (group : (Lexicon.group s.dialect).read s.cursor = .ok none)
      (h : s.expression.read s.cursor = .ok (some (t, r, c))) :
      Reads s t { s with expression := r, cursor := c }

theorem readInContext_eq_some_iff : s.readInContext = .ok (some (t, s')) ↔ s.Reads t s' := by
  constructor
  · intro h
    unfold readInContext at h
    cases context : s.context <;> rw [context] at h
    case expression =>
      obtain ⟨_ | ⟨u, r, c⟩, hr, h⟩ := bind_eq_ok.1 h <;> cases h
      simpa only [context] using Reads.expression context hr
    case bracket =>
      obtain ⟨_ | ⟨u, r, c⟩, hr, h⟩ := bind_eq_ok.1 h <;> cases h
      simpa only [context] using Reads.bracket context hr
    case subexpression =>
      obtain ⟨_ | ⟨u, c⟩, group, h⟩ := bind_eq_ok.1 h
      · obtain ⟨_ | ⟨u, r, c⟩, hr, h⟩ := bind_eq_ok.1 h <;> cases h
        simpa only [context] using Reads.element context group hr
      · cases h
        simpa only [context] using Reads.group context group
  · intro h
    cases h with
    | expression context h | bracket context h | group context h =>
      simp only [readInContext, context, h, bind, Except.bind]
      rfl
    | element context group h =>
      simp only [readInContext, context, group, h, bind, Except.bind]
      rfl

end TokenReader
end IncrementalRegex
