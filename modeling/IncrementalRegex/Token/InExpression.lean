import IncrementalRegex.Queue
import IncrementalRegex.Token.InBrace

namespace IncrementalRegex

/-- Runs of ordinary characters become one token, and every repetition becomes a pair of tokens with
its bounds. -/
structure ExpressionReader where
  dialect : Dialect
  ignoreCase : Bool
  /-- Tokens that are known already: the last character of a run, or an upper bound. -/
  pending : Queue Token := {}
deriving DecidableEq, Repr

namespace ExpressionReader

def isEmpty (r : ExpressionReader) (c : Cursor) : Bool := r.pending.isEmpty && c.atEnd

/-- The ordinary characters from here on, and whether a repetition follows them.  What ends the run
is left to be read again. -/
def ordinaryRun (l : Lexicon) (c : Cursor) : Except PatternError (List Char × Bool × Cursor) :=
  match _read : l.read c with
  | .error e => .error e
  | .ok none => .ok ([], false, c)
  | .ok (some (t, next)) =>
    if t.hasKind .literal then
      match ordinaryRun l next with
      | .error e => .error e
      | .ok (run, repeated, c) => .ok (t.char :: run, repeated, c)
    else .ok ([], t.hasKind .replication || t.hasKind .lBrace, c)
termination_by c.remaining
decreasing_by exact Lexicon.remaining_read ‹_›

/-- The bounds that a token stands for, or introduces. -/
def bounds? (d : Dialect) (t : Token) (c : Cursor) :
    Except PatternError (Option (Bounds × Cursor)) :=
  match t.kind with
  | .replication =>
    .ok (some (if t.char = '?' then .zeroOrOne else .atLeast (if t.char = '+' then 1 else 0), c))
  | .lBrace => do
    match ← Brace.read d c with
    | some p => return some p
    | none => c.fail .brace
  | _ => .ok none

/-- The next token.  A repetition applies to the last character of a run alone, so that character is
a token of its own. -/
def read (r : ExpressionReader) (c : Cursor) :
    Except PatternError (Option (Token × ExpressionReader × Cursor)) :=
  match r.pending.pop? with
  | some (t, pending) => .ok (some (t, { r with pending }, c))
  | none => do
    let lexicon := Lexicon.expression r.dialect r.ignoreCase
    match ← lexicon.read c with
    | none => return none
    | some (t, c) =>
      if t.hasKind .literal then
        let (run, repeated, c) ← ordinaryRun lexicon c
        if repeated then
          match run.getLast? with
          | none => return some (.ofChar .literal t.char, r, c)
          | some last =>
            return some (.ofString .stringLiteral (t.char :: run.dropLast),
              { r with pending := r.pending.push (.ofChar .literal last) }, c)
        else return some (.ofString .stringLiteral (t.char :: run), r, c)
      else
        match ← bounds? r.dialect t c with
        | none => return some (t, r, c)
        | some (b, c) =>
          return some (⟨.repLower, t.char, b.lower, []⟩,
            { r with pending := r.pending.push (.ofCount .repUpper b.upper) }, c)

theorem remaining_ordinaryRun {l : Lexicon} {c c' : Cursor} {run : List Char} {repeated : Bool}
    (h : ordinaryRun l c = .ok (run, repeated, c')) : c'.remaining + run.length ≤ c.remaining := by
  fun_induction ordinaryRun l c generalizing run repeated c' with
  | case1 | case3 => cases h
  | case2 | case5 => cases h; exact Nat.le_refl _
  | case4 c t next hr _ _ _ _ hn ih =>
    have := ih hn
    have := Lexicon.remaining_read hr
    cases h
    simp only [List.length_cons]
    omega

/-- The bounds that a sign of repetition stands for, or that a brace introduces. -/
inductive Bounded (d : Dialect) (t : Token) (c : Cursor) : Option (Bounds × Cursor) → Prop where
  | sign (kind : t.kind = .replication) : Bounded d t c
      (some (if t.char = '?' then .zeroOrOne else .atLeast (if t.char = '+' then 1 else 0), c))
  | brace {b : Bounds} {c' : Cursor} (kind : t.kind = .lBrace)
      (read : Brace.read d c = .ok (some (b, c'))) : Bounded d t c (some (b, c'))
  | none (replication : t.kind ≠ .replication) (brace : t.kind ≠ .lBrace) : Bounded d t c none

theorem bounds_eq_ok_iff {d : Dialect} {t : Token} {c : Cursor} {b : Option (Bounds × Cursor)} :
    bounds? d t c = .ok b ↔ Bounded d t c b := by
  constructor
  · intro h
    unfold bounds? at h
    cases hk : t.kind <;> rw [hk] at h
    case replication => cases h; exact .sign hk
    case lBrace =>
      obtain ⟨_ | p, hread, h⟩ := bind_eq_ok.1 h <;> cases h
      exact .brace hk hread
    all_goals
      cases h
      exact .none (by rw [hk]; decide) (by rw [hk]; decide)
  · intro h
    cases h with
    | sign kind => rw [bounds?, kind]
    | brace kind read =>
      rw [bounds?, kind]
      exact bind_eq_ok.2 ⟨_, read, rfl⟩
    | none replication brace =>
      unfold bounds?
      cases hk : t.kind
      case replication => exact absurd hk replication
      case lBrace => exact absurd hk brace
      all_goals rfl

theorem remaining_bounds {d : Dialect} {t : Token} {c c' : Cursor} {b : Bounds}
    (h : bounds? d t c = .ok (some (b, c'))) : c'.remaining ≤ c.remaining := by
  cases bounds_eq_ok_iff.mp h with
  | sign => exact Nat.le_refl _
  | brace _ read => exact Nat.le_of_lt (Brace.remaining_read read)

def weight (r : ExpressionReader) (c : Cursor) : Nat := 2 * c.remaining + r.pending.size

theorem weight_read {r r' : ExpressionReader} {c c' : Cursor} {t : Token}
    (h : r.read c = .ok (some (t, r', c'))) : r'.weight c' < r.weight c := by
  unfold read at h
  cases hp : r.pending.pop? with
  | some p =>
    have := Queue.size_pop hp
    rw [hp] at h
    cases h
    simp only [weight]
    omega
  | none =>
    rw [hp] at h
    obtain ⟨_ | ⟨u, c₁⟩, hr, h⟩ := bind_eq_ok.1 h
    · cases h
    · have := Lexicon.remaining_read hr
      dsimp only at h
      split at h
      · obtain ⟨⟨run, repeated, c₂⟩, hl, h⟩ := bind_eq_ok.1 h
        have := remaining_ordinaryRun hl
        dsimp only at h
        split at h
        · split at h <;> cases h <;> simp only [weight, Queue.size_push] <;> omega
        · cases h
          simp only [weight]
          omega
      · obtain ⟨_ | ⟨b, c₂⟩, hb, h⟩ := bind_eq_ok.1 h
        · cases h
          simp only [weight]
          omega
        · have := remaining_bounds hb
          cases h
          simp only [weight, Queue.size_push]
          omega

end ExpressionReader
end IncrementalRegex
