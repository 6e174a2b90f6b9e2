import IncrementalRegex.Proofs.Taking
import IncrementalRegex.Proofs.Within

namespace IncrementalRegex

namespace TokenKind

/-- Kinds of tokens that are whole elements, or stand between elements. -/
def isPlain : TokenKind → Bool
  | literal | stringLiteral | charClass | assertion | backRef | alternation | rParen
  | trailingEscape | redundantEscape => true
  | _ => false

/-- Kinds that stand in brackets and nowhere else. -/
def isBracketOnly : TokenKind → Bool
  | negation | rangeDash | bracketLiteral | className | equiv | collate | rBracket => true
  | _ => false

/-- Kinds that tables speak of, but that are resolved before there is a token. -/
def isInternal : TokenKind → Bool
  | simpleBackRef | compoundBackRef | lBrace | replication | hexEscape | unicodeEscape
  | controlChar | control | rBrace | comma | count | badBrace => true
  | _ => false

variable {kind : TokenKind}

theorem outside_of_isPlain (h : kind.isPlain) :
    kind.isBracketOnly = false ∧ kind.isInternal = false := by
  cases kind <;> first | exact ⟨rfl, rfl⟩ | cases h

theorem outside_of_qualifiesGroup (h : kind.qualifiesGroup) :
    kind.isPlain = false ∧ kind.isBracketOnly = false ∧ kind.standsInBracket = false ∧
      kind.isInternal = false := by
  cases kind <;> first | exact ⟨rfl, rfl, rfl, rfl⟩ | cases h

theorem inside_of_standsInBracket (h : kind.standsInBracket) :
    (kind.isBracketOnly ∨ kind = .charClass) ∧ kind.isInternal = false := by
  cases kind <;> first | exact ⟨.inl rfl, rfl⟩ | exact ⟨.inr rfl, rfl⟩ | cases h

end TokenKind

namespace KindTable

/-- All kinds that a table speaks of. -/
def kinds (t : KindTable) : List TokenKind :=
  t.entries.map Prod.snd ++ t.digit.toList ++ t.otherwise.toList

theorem mem_of_lookup {β : Type} {x : Char} {y : β} {entries : List (Char × β)}
    (h : entries.lookup x = some y) : (x, y) ∈ entries := by
  obtain ⟨before, after, rfl, -⟩ := List.lookup_eq_some_iff.mp h
  simp

theorem kind_mem_kinds {t : KindTable} {c : Char} {kind : TokenKind} (h : t.kind? c = some kind) :
    kind ∈ t.kinds := by
  simp only [kinds, List.mem_append, List.mem_map, Option.mem_toList]
  simp only [kind?, Option.orElse_eq_orElse, Option.orElse_eq_or, Option.or_eq_some_iff] at h
  rcases h with he | ⟨-, hd | ⟨-, ho⟩⟩
  · exact .inl (.inl ⟨(c, kind), mem_of_lookup he, rfl⟩)
  · split at hd
    · exact .inl (.inr hd)
    · cases hd
  · exact .inr ho

/-- What has no entry of its own is of the kind of all others. -/
theorem kind_of_notMem {t : KindTable} {c : Char} (hd : t.digit = none)
    (h : ∀ p ∈ t.entries, p.1 ≠ c) : t.kind? c = t.otherwise := by
  have hlookup : t.entries.lookup c = none := by
    rw [List.lookup_eq_none_iff]
    intro p hp
    simpa using (h p hp).symm
  simp [kind?, hlookup, hd]

end KindTable

namespace Lexicon

/-- The kind of the token that comes of a kind found in a table. -/
def resolved (l : Lexicon) : TokenKind → TokenKind
  | .simpleBackRef | .compoundBackRef => .backRef
  | .literal | .bracketLiteral | .hexEscape | .unicodeEscape | .controlChar | .control =>
    l.literalKind
  | kind => kind

theorem kind_of_tokenOf {l : Lexicon} {kind : TokenKind} {x : Char} {c c' : Cursor} {t : Token}
    (h : l.tokenOf kind x c = .ok (t, c')) : t.kind = l.resolved kind := by
  cases tokenOf_eq_ok_iff.mp h with
  | simpleBackRef | compoundBackRef | count | hex | noHex | unicode | noUnicode | controlChar
  | control => rfl
  | named names => rcases names with rfl | rfl | rfl <;> rfl
  | literal ordinary => rcases ordinary with rfl | rfl <;> rfl
  | itself itself => cases kind <;> first | rfl | cases itself

/-- The kinds of all tokens that can be read by the tables. -/
def kinds (l : Lexicon) : List TokenKind :=
  (l.alone.kinds ++ l.pairs.flatMap fun p => p.2.kinds).map l.resolved

theorem kind_mem_of_read {l : Lexicon} {c c' : Cursor} {t : Token}
    (h : l.read c = .ok (some (t, c'))) : t.kind ∈ l.kinds := by
  rw [kinds, List.mem_map]
  cases read_eq_some_iff.mp h with
  | pair _ escape token =>
    obtain ⟨table, hx, -, hkind⟩ := escape_eq_some_iff.mp escape
    refine ⟨_, List.mem_append_right _ ?_, (kind_of_tokenOf token).symm⟩
    exact List.mem_flatMap.mpr ⟨_, KindTable.mem_of_lookup hx, KindTable.kind_mem_kinds hkind⟩
  | alone _ _ entry token =>
    exact ⟨_, List.mem_append_left _ (KindTable.kind_mem_kinds entry), (kind_of_tokenOf token).symm⟩

/-- Kinds that a lexicon of expressions has, and what replaces them in a stream. -/
theorem kind_of_read_expression {d : Dialect} {ignoreCase : Bool} {c c' : Cursor} {t : Token}
    (h : (expression d ignoreCase).read c = .ok (some (t, c'))) :
    t.kind.isPlain ∨ t.kind = .lParen ∨ t.kind = .lBracket ∨ t.kind = .lBrace ∨
      t.kind = .replication := by
  have hall : ∀ kind ∈ (expression d ignoreCase).kinds, kind.isPlain ∨ kind = .lParen ∨
      kind = .lBracket ∨ kind = .lBrace ∨ kind = .replication := by
    cases d <;> cases ignoreCase <;> decide
  exact hall _ (kind_mem_of_read h)

theorem kind_of_read_bracket {d : Dialect} {c c' : Cursor} {t : Token}
    (h : (bracket d).read c = .ok (some (t, c'))) :
    t.kind.standsInBracket ∨ t.kind = .rBracket := by
  have hall : ∀ kind ∈ (bracket d).kinds, kind.standsInBracket ∨ kind = .rBracket := by
    cases d <;> decide
  exact hall _ (kind_mem_of_read h)

theorem kind_of_read_group {d : Dialect} {c c' : Cursor} {t : Token}
    (h : (group d).read c = .ok (some (t, c'))) : t.kind.qualifiesGroup := by
  have hall : ∀ kind ∈ (group d).kinds, kind.qualifiesGroup := by
    cases d <;> decide
  exact hall _ (kind_mem_of_read h)

end Lexicon
end IncrementalRegex
