import IncrementalRegex.Proofs.Counts
import IncrementalRegex.Proofs.Enclosed

namespace IncrementalRegex

/-- What the signs of groups and braces begin with. -/
def Dialect.escape (d : Dialect) : String := if d.isBasic then "\\" else ""

/-- Counts between braces. -/
def Dialect.braced (d : Dialect) (counts : String) : String :=
  d.escape ++ "\x7b" ++ counts ++ d.escape ++ "\x7d"

variable {d : Dialect} {ignoreCase : Bool}

theorem Lexicon.read_sign (d : Dialect) (ignoreCase : Bool) {x : Char} {kind : TokenKind}
    (h : (x, kind) ∈ [('(', .lParen), (')', .rParen), ('\x7b', .lBrace)])
    (before rest : List Char) : ∃ before',
    (expression d ignoreCase).read ⟨before, d.escape.toList ++ x :: rest⟩ =
      .ok (some (.ofChar kind x, ⟨before', rest⟩)) := by
  simp only [List.mem_cons, List.not_mem_nil, or_false, Prod.mk.injEq] at h
  rcases h with ⟨rfl, rfl⟩ | ⟨rfl, rfl⟩ | ⟨rfl, rfl⟩ <;> cases d <;> exact ⟨_, rfl⟩

namespace Brace

theorem closing_escape (d : Dialect) : Closing d (d.escape.toList ++ ['\x7d']) := by
  cases d <;> first | exact .plain | exact .escaped rfl

variable {before rest : List Char}

theorem read_between {b : Bounds} (hb : b.upper ≤ largestWritten) : ∃ before',
    read d ⟨before, (toString b.lower ++ "," ++ toString b.upper).toList ++
      (d.escape.toList ++ ['\x7d'] ++ rest)⟩ = .ok (some (b, ⟨before', rest⟩)) := by
  have hread := read_spelled (spelled_between b hb (closing_escape d)) before rest
  exact ⟨_, by simpa using hread⟩

theorem read_atLeast {lower : Nat} (hlower : lower ≤ largestWritten) : ∃ before',
    read d ⟨before, (toString lower ++ ",").toList ++ (d.escape.toList ++ ['\x7d'] ++ rest)⟩ =
      .ok (some (.atLeast lower, ⟨before', rest⟩)) := by
  have hread := read_spelled (spelled_atLeast hlower (closing_escape d)) before rest
  have hle : lower ≤ unbounded := Nat.le_trans hlower (by decide)
  have hbounds : Bounds.atLeast lower = ⟨lower, unbounded, hle, Nat.le_refl _⟩ := by
    simp only [Bounds.atLeast, Nat.min_eq_left hle]
  rw [hbounds]
  exact ⟨_, by simpa using hread⟩

end Brace

/-- The two tokens of a repetition, which the character `x` introduces. -/
def Bounds.tokens (b : Bounds) (x : Char) : List Token :=
  [⟨.repLower, x, b.lower, []⟩, .ofCount .repUpper b.upper]

/-- Before `rest`, the text is a sign, or counts in braces, that say how often what stands before it
is repeated. -/
def Dialect.Quantifies (d : Dialect) (ignoreCase : Bool) (text rest : List Char) (x : Char)
    (b : Bounds) : Prop :=
  ∀ before, ∃ kind c before', (kind = .replication ∨ kind = .lBrace) ∧
    (Lexicon.expression d ignoreCase).read ⟨before, text ++ rest⟩ =
      .ok (some (.ofChar kind x, c)) ∧
    ExpressionReader.bounds? d (.ofChar kind x) c = .ok (some (b, ⟨before', rest⟩))

theorem quantifies_star (d : Dialect) (ignoreCase : Bool) (rest : List Char) :
    d.Quantifies ignoreCase "*".toList rest '*' (.atLeast 0) := by
  intro before
  cases d <;> exact ⟨_, _, _, .inl rfl, rfl, rfl⟩

theorem quantifies_braced (ignoreCase : Bool) {counts : String} {rest : List Char} {b : Bounds}
    (h : ∀ before, ∃ before', Brace.read d ⟨before, counts.toList ++
      (d.escape.toList ++ ['\x7d'] ++ rest)⟩ = .ok (some (b, ⟨before', rest⟩))) :
    d.Quantifies ignoreCase (d.braced counts).toList rest '\x7b' b := by
  intro before
  obtain ⟨b₁, hopen⟩ := Lexicon.read_sign d ignoreCase
    (by simp : ('\x7b', TokenKind.lBrace) ∈ _) before
    (counts.toList ++ (d.escape.toList ++ ['\x7d'] ++ rest))
  obtain ⟨b₂, hbounds⟩ := h b₁
  refine ⟨.lBrace, _, b₂, .inr rfl, ?_, bind_eq_ok.2 ⟨_, hbounds, rfl⟩⟩
  simpa [Dialect.braced] using hopen

namespace TokenReader

variable {r r' : ExpressionReader} {c c' : Cursor} {t : Token}

/-- Tokens that open and close nothing are read outside groups and brackets as they are. -/
theorem read_of_reads (h : r.Reads c t r' c')
    (hk : t.kind ∈ [.literal, .stringLiteral, .repLower, .repUpper]) :
    ({ cursor := c, expression := r : TokenReader}).read =
      .ok (some (t, { cursor := c', expression := r' })) := by
  refine read_eq_some_iff.mpr ⟨_, readInContext_eq_some_iff.mpr
    (.expression rfl (ExpressionReader.read_eq_some_iff.mpr h)), ?_⟩
  simp only [List.mem_cons, List.not_mem_nil, or_false] at hk
  rcases hk with hk | hk | hk | hk <;> rw [hk] <;> exact ⟨rfl, rfl⟩

/-- The bounds of a repetition are read as two tokens, the second of them held back. -/
theorem readsTo_quantifier {text rest : List Char} {x : Char} {b : Bounds}
    (h : d.Quantifies ignoreCase text rest x b) (before : List Char) : ∃ before',
    (fresh d ignoreCase ⟨before, text ++ rest⟩).ReadsTo (b.tokens x)
      (fresh d ignoreCase ⟨before', rest⟩) := by
  obtain ⟨kind, c, before', hkind, hread, hbounds⟩ := h before
  let r : ExpressionReader := { dialect := d, ignoreCase := ignoreCase }
  let r' : ExpressionReader := { r with pending := r.pending.push (.ofCount .repUpper b.upper) }
  have hliteral : (Token.ofChar kind x).hasKind .literal = false := by
    rcases hkind with rfl | rfl <;> rfl
  have hlower : r.Reads ⟨before, text ++ rest⟩ ⟨.repLower, x, b.lower, []⟩ r' ⟨before', rest⟩ :=
    .repetition (t := .ofChar kind x) rfl hread hliteral hbounds
  have hupper : r'.Reads ⟨before', rest⟩ (.ofCount .repUpper b.upper) r ⟨before', rest⟩ :=
    .known rfl
  exact ⟨before', .step (read_of_reads hlower (by simp)) (.step (read_of_reads hupper
    (by simp [Token.ofCount])) (.refl _))⟩

end TokenReader

end IncrementalRegex
