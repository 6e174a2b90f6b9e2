import IncrementalRegex.Proofs.Agreement
import IncrementalRegex.Proofs.Alike
import IncrementalRegex.Proofs.Beside

namespace IncrementalRegex

open Matcher

/-- The characters that may stand between alternatives. -/
def Dialect.Separates (d : Dialect) (sep : Char) : Prop :=
  sep = '|' ∧ d.isBasic = false ∨ sep = '\n' ∧ d.hasNewlineAlternation

variable {d : Dialect} {ignoreCase : Bool} {sep : Char}

theorem read_separator (h : d.Separates sep) (before rest : List Char) :
    (Lexicon.expression d ignoreCase).read ⟨before, sep :: rest⟩ =
      .ok (some (.ofChar .alternation sep, ⟨sep :: before, rest⟩)) := by
  have hkind : (Lexicon.expression d ignoreCase).alone.kind? sep = some .alternation := by
    rcases h with ⟨rfl, hd⟩ | ⟨rfl, hd⟩ <;> cases d <;> first | rfl | cases hd
  have hkey : (Lexicon.expression d ignoreCase).pairs.lookup sep = none := by
    rcases h with ⟨rfl, -⟩ | ⟨rfl, -⟩ <;> rfl
  refine Lexicon.read_eq_some_iff.mpr (.alone rfl ?_ hkind rfl)
  rw [Lexicon.escape?, hkey]
  rfl

theorem boundary_separator (h : d.Separates sep) (rest : List Char) :
    Boundary (.expression d ignoreCase) (sep :: rest) where
  digit := by
    intro x hx
    cases hx
    rcases h with ⟨rfl, -⟩ | ⟨rfl, -⟩ <;> rfl
  opener := by
    intro x hx
    cases hx
    rcases h with ⟨rfl, -⟩ | ⟨rfl, -⟩ <;> rfl
  sign := .inr fun before => ⟨_, _, read_separator h before rest, rfl, rfl, rfl⟩

theorem TokenReader.read_separator (h : d.Separates sep) (before rest : List Char) :
    (fresh d ignoreCase ⟨before, sep :: rest⟩).read =
      .ok (some (.ofChar .alternation sep, fresh d ignoreCase ⟨sep :: before, rest⟩)) := by
  have hsign : ExpressionReader.Reads { dialect := d, ignoreCase := ignoreCase }
      ⟨before, sep :: rest⟩ (.ofChar .alternation sep)
      { dialect := d, ignoreCase := ignoreCase } ⟨sep :: before, rest⟩ :=
    .sign rfl (IncrementalRegex.read_separator h before rest) rfl rfl
  refine read_eq_some_iff.mpr ⟨fresh d ignoreCase ⟨sep :: before, rest⟩, ?_, rfl, rfl⟩
  exact readInContext_eq_some_iff.mpr
    (.expression rfl (ExpressionReader.read_eq_some_iff.mpr hsign))

variable {g : Grammar}

/-- The branches of two patterns with a separator between them are those of the one and those of
the other. -/
theorem spells_separated (h : d.Separates sep) {text₁ text₂ : List Char}
    {pattern₁ pattern₂ : Pattern}
    (h₁ : Spells g (.start d ignoreCase text₁) {} pattern₁)
    (h₂ : Spells g (.start d ignoreCase text₂) {} pattern₂) :
    ∃ bs₁ bs₂, pattern₁ = .join .either bs₁ ∧ pattern₂ = .join .either bs₂ ∧
      Spells g (.start d ignoreCase (text₁ ++ sep :: text₂)) {} (.join .either (bs₁ ++ bs₂)) := by
  obtain ⟨before, p, hreach₁, hfinish₁⟩ :=
    h₁.reaches_within (agrees_start text₁) (boundary_separator h text₂) []
  obtain ⟨hexpecting₁, houter₁, rfl⟩ := Parser.finish_eq_ok_iff.mp hfinish₁
  have hread : (TokenReader.fresh d ignoreCase ⟨before, sep :: text₂⟩).read =
      .ok (some (.ofChar .alternation sep, .fresh d ignoreCase ⟨sep :: before, text₂⟩)) :=
    TokenReader.read_separator h before text₂
  have htake : p.step g (.ofChar .alternation sep) =
      .ok { p with group := p.group.closeBranch, expecting := .element } := by
    rw [Parser.step, hexpecting₁]
    rfl
  obtain ⟨before', q, hreach₂, hfinish₂⟩ :=
    h₂.reaches_within (agrees_start text₂) (boundary_nil _) (sep :: before)
  have hbeside : Parser.Beside p.group.closeBranch.branches {}
      { p with group := p.group.closeBranch, expecting := .element } := by
    refine ⟨?_, rfl, fun hne => absurd rfl hne⟩
    rw [houter₁]
    exact .last {}
  obtain ⟨q', hreach, hq⟩ := hreach₂.beside hbeside
  have hwithin : (TokenReader.start d ignoreCase text₂).within (sep :: before) [] =
      .fresh d ignoreCase ⟨sep :: before, text₂⟩ := by
    simp [TokenReader.within, TokenReader.start, TokenReader.fresh, Cursor.within, Cursor.start]
  rw [hwithin] at hreach
  have hend : (TokenReader.fresh d ignoreCase ⟨before', []⟩).read = .ok none := rfl
  refine ⟨_, _, rfl, (Parser.finish_eq_ok_iff.mp hfinish₂).2.2.symm, hreach₁.spells ?_⟩
  exact .step hread htake (hreach.spells (.done hend (Parser.finish_beside hq hfinish₂)))

/-- The compiled whole reports the states of the choice between the compiled parts. -/
theorem compile_separated {flags : Flags} {text₁ text₂ : String} {tag₁ tag₂ : Nat}
    {m₁ m₂ : Matcher Char CharTest × Nat} (h : (Dialect.ofFlags flags).Separates sep)
    (h₁ : compile flags text₁ tag₁ = .ok m₁) (h₂ : compile flags text₂ tag₂ = .ok m₂) (tag : Nat) :
    ∃ m, compile flags (text₁ ++ sep.toString ++ text₂) tag = .ok m ∧
      m.1.start.state = (either [m₁.1, m₂.1]).start.state ∧
      ∀ input, m.1.start.states input = (either [m₁.1, m₂.1]).start.states input := by
  obtain ⟨pattern₁, hspells₁, rfl⟩ := compile_eq_ok_iff.mp h₁
  obtain ⟨pattern₂, hspells₂, rfl⟩ := compile_eq_ok_iff.mp h₂
  obtain ⟨bs₁, bs₂, hbs₁, hbs₂, hspells⟩ := spells_separated h hspells₁ hspells₂
  have hproper₁ := proper_of_spells hspells₁
  have hproper₂ := proper_of_spells hspells₂
  subst hbs₁ hbs₂
  have halike := Pattern.alike_join_append hproper₁ hproper₂ tag tag₁ tag₂
  refine ⟨_, compile_eq_ok_iff.mpr ⟨_, ?_, rfl⟩, halike.state_eq, halike.states_eq⟩
  have htext : (text₁ ++ sep.toString ++ text₂).toList = text₁.toList ++ sep :: text₂.toList := by
    simp
  rw [TokenReader.ofPattern, htext]
  exact hspells

theorem states_of_second_branch :
    ∃ m, compile [] ("[a]" ++ '|'.toString ++ "[b]") = .ok m ∧
      m.1.start.states ['b'] = [.finalMatch] := by
  let set (c : Char) := CharSet.addChar { ignoreCase := false } c
  have ha : compile [] "[a]" = .ok (.satisfying 0 (.inSet (set 'a')), 1) := by
    refine compile_eq_ok_iff.mpr ⟨.satisfying (.inSet (set 'a')), ?_, rfl⟩
    exact .step rfl rfl (.step rfl rfl (.step rfl rfl (.done rfl rfl)))
  have hb : compile [] "[b]" = .ok (.satisfying 0 (.inSet (set 'b')), 1) := by
    refine compile_eq_ok_iff.mpr ⟨.satisfying (.inSet (set 'b')), ?_, rfl⟩
    exact .step rfl rfl (.step rfl rfl (.step rfl rfl (.done rfl rfl)))
  obtain ⟨m, hm, -, hstates⟩ := compile_separated (.inl ⟨rfl, rfl⟩) ha hb 0
  exact ⟨m, hm, (hstates ['b']).trans (by decide)⟩

end IncrementalRegex
