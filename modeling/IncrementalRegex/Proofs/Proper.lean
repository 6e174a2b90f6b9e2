import IncrementalRegex.Proofs.Recognition
import IncrementalRegex.Proofs.Taking
import IncrementalRegex.Proofs.Tokens

namespace IncrementalRegex

theorem Brace.lower_le_of_read {d : Dialect} {c c' : Cursor} {b : Bounds}
    (h : read d c = .ok (some (b, c'))) : b.lower ≤ largestWritten := by
  cases read_eq_some_iff.mp h with
  | exactly _ written _ _ bounds | atLeast _ written _ _ _ _ bounds
  | between _ written _ _ _ _ _ _ bounds =>
    rw [Bounds.lower_of_between bounds]
    exact written.2

theorem ExpressionReader.lower_lt_of_bounds {d : Dialect} {t : Token} {c c' : Cursor} {b : Bounds}
    (h : bounds? d t c = .ok (some (b, c'))) : b.lower < unbounded := by
  cases bounds_eq_ok_iff.mp h with
  | sign => split_ifs <;> decide
  | brace _ read => exact Nat.lt_of_le_of_lt (Brace.lower_le_of_read read) (by decide)

/-- A lower bound is less than the largest count. -/
def Token.Proper (t : Token) : Prop := t.kind = .repLower → t.count < unbounded

theorem Token.proper_of_count {t : Token} (h : t.count = 0) : t.Proper := by
  intro _
  rw [h]
  decide

theorem Token.proper_ofCount {kind : TokenKind} (n : Nat) (h : kind ≠ .repLower) :
    (Token.ofCount kind n).Proper := fun hk => absurd hk h

theorem Lexicon.proper_tokenOf {l : Lexicon} {kind : TokenKind} {x : Char} {c c' : Cursor}
    {t : Token} (h : l.tokenOf kind x c = .ok (t, c')) : t.Proper := by
  cases tokenOf_eq_ok_iff.mp h with
  | simpleBackRef | compoundBackRef | count => exact Token.proper_ofCount _ (by decide)
  | hex | noHex | unicode | noUnicode | controlChar | control | named | literal | itself =>
    exact Token.proper_of_count rfl

theorem Lexicon.proper_read {l : Lexicon} {c c' : Cursor} {t : Token}
    (h : l.read c = .ok (some (t, c'))) : t.Proper := by
  cases read_eq_some_iff.mp h with
  | pair _ _ token | alone _ _ _ token => exact proper_tokenOf token

theorem BracketPlace.proper_meaning {p : BracketPlace} {t : Token} (h : t.Proper) :
    (p.meaning t).Proper := by
  unfold meaning
  split <;> first | exact h | exact Token.proper_of_count rfl

/-- All tokens held back are proper. -/
def TokenReader.Proper (s : TokenReader) : Prop :=
  (∀ t ∈ s.expression.pending.items, t.Proper) ∧ ∀ t ∈ s.bracket.ahead.items, t.Proper

theorem ExpressionReader.proper_read {r r' : ExpressionReader} {c c' : Cursor} {t : Token}
    (h : r.read c = .ok (some (t, r', c'))) (hr : ∀ u ∈ r.pending.items, u.Proper) :
    t.Proper ∧ ∀ u ∈ r'.pending.items, u.Proper := by
  cases read_eq_some_iff.mp h with
  | known hp =>
    rw [Queue.pop_eq_some_iff.mp hp] at hr
    exact ⟨hr t List.mem_cons_self, fun u hu => hr u (List.mem_cons_of_mem _ hu)⟩
  | single | whole => exact ⟨Token.proper_of_count rfl, hr⟩
  | cut empty =>
    refine ⟨Token.proper_of_count rfl, ?_⟩
    simpa [Queue.push, empty] using Token.proper_of_count rfl
  | sign empty first => exact ⟨Lexicon.proper_read first, hr⟩
  | repetition empty _ _ bounds =>
    refine ⟨fun _ => lower_lt_of_bounds bounds, ?_⟩
    simpa [Queue.push, empty] using Token.proper_ofCount _ (by decide)

theorem BracketReader.proper_read {d : Dialect} {r r' : BracketReader} {c c' : Cursor} {t : Token}
    (h : r.read d c = .ok (some (t, r', c'))) (hr : ∀ u ∈ r.ahead.items, u.Proper) :
    t.Proper ∧ ∀ u ∈ r'.ahead.items, u.Proper := by
  have hraw {u : Token} {ahead : Queue Token} {e : Cursor}
      (raw : r.raw d c = .ok (some (u, ahead, e))) : u.Proper ∧ ∀ v ∈ ahead.items, v.Proper := by
    rcases raw_eq_some_iff.mp raw with ⟨hp, -⟩ | ⟨-, rfl, hl⟩
    · rw [hp] at hr
      exact ⟨hr u List.mem_cons_self, fun v hv => hr v (List.mem_cons_of_mem _ hv)⟩
    · exact ⟨Lexicon.proper_read hl, by simp⟩
  have hpush {v : Token} {ahead : Queue Token} (hv : v.Proper) (ha : ∀ u ∈ ahead.items, u.Proper) :
      ∀ u ∈ (ahead.push v).items, u.Proper := by
    intro u hu
    rcases List.mem_append.mp hu with hu | hu
    · exact ha u hu
    · rwa [List.mem_singleton.mp hu]
  cases read_eq_some_iff.mp h with
  | plain raw | lastDash raw => exact ⟨BracketPlace.proper_meaning (hraw raw).1, (hraw raw).2⟩
  | dash raw _ next =>
    exact ⟨BracketPlace.proper_meaning (hraw raw).1,
      hpush (Lexicon.proper_read next) (hraw raw).2⟩
  | literalDash raw _ next =>
    exact ⟨Token.proper_of_count rfl, hpush (Lexicon.proper_read next) (hraw raw).2⟩

theorem TokenReader.proper_read {s s' : TokenReader} {t : Token}
    (hread : s.read = .ok (some (t, s'))) (hs : s.Proper) : t.Proper ∧ s'.Proper := by
  obtain ⟨u, hr, -, rfl⟩ := read_eq_some_iff.mp hread
  cases readInContext_eq_some_iff.mp hr with
  | expression _ h | element _ _ h =>
    obtain ⟨ht, hr⟩ := ExpressionReader.proper_read h hs.1
    exact ⟨ht, hr, hs.2⟩
  | bracket _ h =>
    obtain ⟨ht, hr⟩ := BracketReader.proper_read h hs.2
    exact ⟨ht, hs.1, hr⟩
  | group _ h => exact ⟨Lexicon.proper_read h, hs⟩

namespace Pattern

/-- Choices are among something, and the least number of repetitions is not the largest count. -/
inductive Proper : Pattern → Prop where
  | leaf {p : Pattern} (h : p.IsLeaf) : Proper p
  | concat {ps : List Pattern} (parts : ∀ p ∈ ps, Proper p) : Proper (concat ps)
  | either {ps : List Pattern} (h : ps ≠ []) (parts : ∀ p ∈ ps, Proper p) : Proper (either ps)
  | repeated {p : Pattern} {b : Bounds} (h : b.lower < unbounded) (part : Proper p) :
      Proper (repeated p b)

theorem join_cases (combine : List Pattern → Pattern) (ps : List Pattern) :
    (∃ p, ps = [p] ∧ join combine ps = p) ∨ join combine ps = combine ps := by
  unfold join
  split
  · exact .inl ⟨_, rfl, rfl⟩
  · exact .inr rfl

theorem proper_join_concat {ps : List Pattern} (h : ∀ p ∈ ps, p.Proper) :
    (join concat ps).Proper := by
  rcases join_cases concat ps with ⟨p, rfl, hp⟩ | hp <;> rw [hp]
  · exact h p List.mem_cons_self
  · exact .concat h

theorem proper_join_either {ps : List Pattern} (hne : ps ≠ []) (h : ∀ p ∈ ps, p.Proper) :
    (join either ps).Proper := by
  rcases join_cases either ps with ⟨p, rfl, hp⟩ | hp <;> rw [hp]
  · exact h p List.mem_cons_self
  · exact .either hne h

theorem length_matchers (tag : Nat) (ps : List Pattern) :
    (matchers tag ps).1.length = ps.length := by
  induction ps generalizing tag with
  | nil => rfl
  | cons p ps ih => rw [matchers, List.length_cons, List.length_cons, ih]

theorem mem_matchers {tag : Nat} {ps : List Pattern} {m : Matcher Char CharTest}
    (h : m ∈ (matchers tag ps).1) : ∃ p ∈ ps, ∃ tag', m = (p.matcher tag').1 := by
  induction ps generalizing tag with
  | nil => cases h
  | cons p ps ih =>
    rw [matchers] at h
    rcases List.mem_cons.mp h with rfl | h
    · exact ⟨p, List.mem_cons_self, tag, rfl⟩
    · obtain ⟨q, hq, tag', rfl⟩ := ih h
      exact ⟨q, List.mem_cons_of_mem p hq, tag', rfl⟩

theorem built_matcher {p : Pattern} (h : p.Proper) (tag : Nat) :
    (p.matcher tag).1.Built .proper := by
  induction h generalizing tag with
  | @leaf p h =>
    cases p with
    | one c => exact .one c
    | text cs => exact .literal cs
    | any => exact .any trivial
    | satisfying t => exact .satisfying tag trivial
    | concat | either | repeated => exact h.elim
  | concat _ ih =>
    refine .concat trivial fun m hm => ?_
    obtain ⟨p, hp, tag', rfl⟩ := mem_matchers hm
    exact ih p hp tag'
  | either h _ ih =>
    refine .either ?_ fun m hm => ?_
    · rw [length_matchers]
      exact List.length_pos_iff.mpr h
    · obtain ⟨p, hp, tag', rfl⟩ := mem_matchers hm
      exact ih p hp tag'
  | repeated h _ ih => exact .replicate h (ih tag)

end Pattern

namespace Parser

/-- All that has been read of a group is proper. -/
structure ProperGroup (g : Group) : Prop where
  branches : ∀ p ∈ g.branches, p.Proper
  branch : ∀ p ∈ g.branch, p.Proper

structure Proper (p : Parser) : Prop where
  group : ProperGroup p.group
  outer : ∀ g ∈ p.outer, ProperGroup g
  expecting : ∀ lower, p.expecting = .upperBound lower → lower < unbounded

variable {g : Group} {p p' : Parser} {t : Token}

theorem ProperGroup.push (h : ProperGroup g) {e : Pattern} (he : e.Proper) :
    ProperGroup (g.push e) where
  branches := h.branches
  branch := List.forall_mem_cons.mpr ⟨he, h.branch⟩

theorem ProperGroup.closeBranch (h : ProperGroup g) : ProperGroup g.closeBranch where
  branches := by
    refine List.forall_mem_cons.mpr ⟨Pattern.proper_join_concat fun p hp => ?_, h.branches⟩
    exact h.branch p (List.mem_reverse.mp hp)
  branch := List.forall_mem_nil _

theorem ProperGroup.pattern (h : ProperGroup g) : g.pattern.Proper := by
  apply Pattern.proper_join_either
  · simp [Group.closeBranch]
  · intro p hp
    exact h.closeBranch.branches p (List.mem_reverse.mp hp)

theorem Proper.push (h : p.Proper) {e : Pattern} (he : e.Proper) : (p.push e).Proper where
  group := h.group.push he
  outer := h.outer
  expecting _ hlower := by cases hlower

theorem TakesElement.proper (h : p.TakesElement t p') (hp : p.Proper) (ht : t.Proper) :
    p'.Proper := by
  cases h with
  | push leaf => exact hp.push (.leaf leaf)
  | dollar | openBracket => exact ⟨hp.group, hp.outer, fun _ h => by cases h⟩
  | openGroup =>
    refine ⟨⟨List.forall_mem_nil _, List.forall_mem_nil _⟩, ?_, fun _ h => by cases h⟩
    exact List.forall_mem_cons.mpr ⟨hp.group, hp.outer⟩
  | closeGroup _ ho =>
    have houter := hp.outer
    rw [ho] at houter
    obtain ⟨hg, houter⟩ := List.forall_mem_cons.mp houter
    exact ⟨hg.push hp.group.pattern, houter, fun _ h => by cases h⟩
  | alternation => exact ⟨hp.group.closeBranch, hp.outer, fun _ h => by cases h⟩
  | repetition hk =>
    refine ⟨hp.group, hp.outer, fun lower h => ?_⟩
    cases h
    exact ht hk

theorem Takes.proper (h : p.Takes t p') (hp : p.Proper) (ht : t.Proper) : p'.Proper := by
  cases h with
  | element _ h => exact h.proper hp ht
  | plainGroup => exact ⟨hp.group, hp.outer, fun _ h => by cases h⟩
  | afterDollar _ h => exact h.proper (hp.push (.leaf trivial)) ht
  | star | closeBracket => exact hp.push (.leaf trivial)
  | repeated he _ hb =>
    have hbranch := hp.group.branch
    rw [hb] at hbranch
    obtain ⟨helement, hbranch⟩ := List.forall_mem_cons.mp hbranch
    refine ⟨⟨hp.group.branches, ?_⟩, hp.outer, fun _ h => by cases h⟩
    exact List.forall_mem_cons.mpr ⟨.repeated (hp.expecting _ he) helement, hbranch⟩
  | @inBracket e _ next =>
    refine ⟨hp.group, hp.outer, fun lower h => ?_⟩
    obtain rfl : e = .upperBound lower := h
    cases next

theorem proper_finish {pattern : Pattern} (hp : p.Proper) (h : p.finish = .ok pattern) :
    pattern.Proper := by
  unfold finish at h
  split at h
  · split_ifs at h
    cases h
    exact hp.group.pattern
  all_goals cases h

end Parser

theorem Spells.proper {g : Grammar} {s : TokenReader} {p : Parser} {pattern : Pattern}
    (h : Spells g s p pattern) (hs : s.Proper) (hp : p.Proper) : pattern.Proper := by
  induction h with
  | done _ finish => exact Parser.proper_finish hp finish
  | step read take _ ih =>
    obtain ⟨ht, hs⟩ := TokenReader.proper_read read hs
    exact ih hs ((Parser.takes_of_step take).proper hp ht)

theorem proper_of_spells {flags : Flags} {text : String} {pattern : Pattern}
    (h : Spells (.ofFlags flags) (.ofPattern flags text) {} pattern) : pattern.Proper :=
  h.proper ⟨List.forall_mem_nil _, List.forall_mem_nil _⟩
    ⟨⟨List.forall_mem_nil _, List.forall_mem_nil _⟩, List.forall_mem_nil _, fun _ h => by cases h⟩

theorem built_of_compile {flags : Flags} {text : String} {tag : Nat}
    {m : Matcher Char CharTest × Nat} (h : compile flags text tag = .ok m) :
    m.1.Built .proper := by
  obtain ⟨pattern, hspells, rfl⟩ := compile_eq_ok_iff.mp h
  exact Pattern.built_matcher (proper_of_spells hspells) tag

/-- Proper trees accept exactly what they denote, and patterns compile to proper trees. -/
theorem accepts_iff_mem_language {α τ : Type} [DecidableEq α] [DecidableEq τ] [ItemTest τ α] :
    (∀ m : Matcher α τ, m.Built .proper → ∀ s, m.accepts s ↔ s ∈ m.language) ∧
    ∀ flags text tag m, compile flags text tag = .ok m → m.1.Built .proper :=
  ⟨fun _ hm s => Matcher.accepts_iff_of_built hm s, fun _ _ _ _ h => built_of_compile h⟩

theorem accepts_bracketed_letter :
    ∃ m, compile [] "[a]" = .ok m ∧ ['a'] ∈ m.1.language := by
  let set := CharSet.addChar { ignoreCase := false } 'a'
  have h : compile [] "[a]" 0 = .ok (.satisfying 0 (.inSet set), 1) := by
    refine compile_eq_ok_iff.mpr ⟨.satisfying (.inSet set), ?_, rfl⟩
    exact .step rfl rfl (.step rfl rfl (.step rfl rfl (.done rfl rfl)))
  have hbuilt := (accepts_iff_mem_language (α := Char) (τ := CharTest)).2 _ _ _ _ h
  exact ⟨_, h, (accepts_iff_mem_language.1 _ hbuilt ['a']).mp (by decide)⟩

end IncrementalRegex
