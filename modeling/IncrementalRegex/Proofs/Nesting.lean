import IncrementalRegex.Proofs.Grouping
import IncrementalRegex.Proofs.Height
import Mathlib.Tactic.Ring

namespace IncrementalRegex

/-- The greatest height of an element where `n` more groups may be opened: in each of them as many
repetitions may be stacked as groups may be opened at that place. -/
def heightLimit : Nat → Nat
  | 0 => 0
  | n + 1 => heightLimit n + (n + 1)

theorem heightLimit_eq (n : Nat) : heightLimit n = n * (n + 1) / 2 := by
  have htwice : heightLimit n * 2 = n * (n + 1) := by
    induction n with
    | zero => rfl
    | succ n ih => rw [heightLimit, Nat.add_mul, ih]; ring
  omega

/-- Repetitions are stacked on something that fits in one more group. -/
theorem heightLimit_pred (n : Nat) : heightLimit (n - 1) + n = heightLimit n := by
  cases n <;> rfl

namespace Group

/-- All that has been read of a group is at most `n` high. -/
def Below (n : Nat) (g : Group) : Prop := g.All fun p => p.height ≤ n

variable {n : Nat} {g : Group}

theorem Below.closeBranch (h : g.Below n) : g.closeBranch.Below n :=
  All.closeBranch (fun _ => Pattern.heights_le_iff.mpr) h

theorem Below.pattern (h : g.Below n) : g.pattern.height ≤ n :=
  All.pattern (fun _ => Pattern.heights_le_iff.mpr) (fun _ => Pattern.heights_le_iff.mpr) h

/-- Each group, the innermost first, is as low as the groups around it ask for. -/
def AllBelow : List Group → Prop
  | [] => True
  | g :: outer => g.Below (heightLimit (nestingLimit - outer.length)) ∧ AllBelow outer

end Group

namespace Parser

variable {g : Grammar} {p p' : Parser} {t : Token}

/-- The number of groups that may still be opened here. -/
def room (p : Parser) : Nat := nestingLimit - p.outer.length

/-- The groups that are open around an element and the repetitions stacked on it are within the
limit, also with the one that is being read. -/
structure Roomy (p : Parser) : Prop where
  le : p.outer.length + p.stacked ≤ nestingLimit
  lt : ∀ lower, p.expecting = .upperBound lower → p.group.branch ≠ [] →
    p.outer.length + p.stacked < nestingLimit

theorem roomy_empty : Roomy {} := ⟨Nat.zero_le _, fun _ h => by cases h⟩

theorem roomy_push (hp : p.outer.length + p.stacked ≤ nestingLimit) (e : Pattern) :
    (p.push e).Roomy :=
  ⟨Nat.le_of_add_right_le hp, fun _ h => by cases h⟩

theorem OnElement.roomy (h : p.OnElement g t p') (hp : p.outer.length + p.stacked ≤ nestingLimit) :
    p'.Roomy := by
  cases h with
  | text | literal | charClass | caret => exact roomy_push hp _
  | openGroup _ room => exact ⟨Nat.le_of_not_lt room, fun _ h => by cases h⟩
  | @closeGroup group outer _ opened =>
    rw [opened, List.length_cons] at hp
    exact ⟨Nat.le_trans (Nat.le_succ _) (Nat.le_of_add_right_le hp), fun _ h => by cases h⟩
  | openBracket | alternation | dollar => exact ⟨hp, fun _ h => by cases h⟩
  | leadingStar _ start => exact ⟨hp, fun _ _ hne => absurd start hne⟩
  | repetition _ _ room => exact ⟨hp, fun _ _ _ => Nat.le_of_not_lt room⟩

theorem Roomy.step (hp : p.Roomy) (h : p.step g t = .ok p') : p'.Roomy := by
  cases step_eq_ok_iff.mp h with
  | element _ h | groupStart _ h => exact h.roomy hp.le
  | qualifier => exact ⟨hp.le, fun _ h => by cases h⟩
  | afterDollar _ _ h => exact h.roomy (roomy_push hp.le _).le
  | upperBound context h =>
    cases h with
    | star => exact roomy_push hp.le _
    | repeated _ _ last => exact ⟨hp.lt _ context (by simp [last]), fun _ h => by cases h⟩
  | item _ h =>
    cases h with
    | close => exact roomy_push hp.le _
    | negate | char | collate | equiv | named | escape | dash =>
      exact ⟨hp.le, fun _ h => by cases h⟩
  | rangeEnd _ h =>
    cases h with
    | char | collate => exact ⟨hp.le, fun _ h => by cases h⟩

/-- All that has been read is as low as the room for it asks for. -/
structure Low (p : Parser) : Prop where
  groups : Group.AllBelow (p.group :: p.outer)
  last : ∀ e ∈ p.group.branch.head?, e.height ≤ heightLimit (p.room - 1) + p.stacked

theorem Low.expect (hp : p.Low) (e : Expecting) : (p.expect e).Low := ⟨hp.groups, hp.last⟩

theorem low_push (hp : Group.AllBelow (p.group :: p.outer)) {e : Pattern}
    (he : e.height ≤ heightLimit (p.room - 1)) : (p.push e).Low where
  groups := by
    have hlimit : heightLimit (p.room - 1) ≤ heightLimit p.room := by
      rw [← heightLimit_pred p.room]
      exact Nat.le_add_right ..
    exact ⟨hp.1.push (he.trans hlimit), hp.2⟩
  last d hd := by
    obtain rfl : e = d := Option.some.inj hd
    exact he

theorem Low.push_leaf (hp : p.Low) {e : Pattern} (he : e.IsLeaf) : (p.push e).Low :=
  low_push hp.groups (by rw [he.height_eq]; exact Nat.zero_le _)

theorem TakesElement.low (h : p.TakesElement t p') (hp : p.Low) : p'.Low := by
  cases h with
  | push leaf => exact hp.push_leaf leaf
  | dollar | openBracket | repetition => exact hp.expect _
  | openGroup =>
    refine ⟨⟨Group.all_empty _, hp.groups⟩, fun e he => ?_⟩
    cases he
  | @closeGroup group outer _ ho =>
    have hgroups := hp.groups
    rw [ho] at hgroups
    refine low_push hgroups.2 ?_
    have hpattern := hgroups.1.pattern
    rwa [List.length_cons, ← Nat.sub_sub] at hpattern
  | alternation => exact ⟨⟨hp.groups.1.closeBranch, hp.groups.2⟩, fun e he => by cases he⟩

theorem Low.step (hp : p.Low) (hroomy : p.Roomy) (h : p.step g t = .ok p') : p'.Low := by
  cases takes_of_step h with
  | element _ h => exact h.low hp
  | afterDollar _ h => exact h.low (hp.push_leaf trivial)
  | plainGroup | inBracket => exact hp.expect _
  | star | closeBracket => exact hp.push_leaf trivial
  | @repeated b e es he _ hb =>
    have hstacked : p.stacked < p.room := by
      have hlt := hroomy.lt _ he (by simp [hb])
      unfold room
      omega
    have hlast := hp.last e (by simp [hb])
    have hlimit := heightLimit_pred p.room
    have hheight : (Pattern.repeated e b).height = e.height + 1 := rfl
    obtain ⟨⟨hbranches, hbranch⟩, houter⟩ := hp.groups
    rw [hb] at hbranch
    obtain ⟨-, hbranch⟩ := List.forall_mem_cons.mp hbranch
    refine ⟨⟨⟨hbranches, List.forall_mem_cons.mpr ⟨?_, hbranch⟩⟩, houter⟩, fun d hd => ?_⟩
    · change _ ≤ heightLimit p.room
      omega
    · obtain rfl : Pattern.repeated e b = d := Option.some.inj hd
      change _ ≤ heightLimit (p.room - 1) + (p.stacked + 1)
      omega

end Parser

theorem Spells.height_le {g : Grammar} {s : TokenReader} {p : Parser} {pattern : Pattern}
    (h : Spells g s p pattern) (hroomy : p.Roomy) (hp : p.Low) :
    pattern.height ≤ heightLimit nestingLimit := by
  induction h with
  | done _ finish =>
    obtain ⟨-, houter, rfl⟩ := Parser.finish_eq_ok_iff.mp finish
    have hgroup := hp.groups.1
    rw [houter] at hgroup
    exact hgroup.pattern
  | step _ take _ ih => exact ih (hroomy.step take) (hp.step hroomy take)

/-- Of a tree that has been compiled, and of what becomes of it whatever is read. -/
theorem height_le_of_compile {flags : Flags} {text : String} {tag : Nat}
    {m : Matcher Char CharTest × Nat} (h : compile flags text tag = .ok m) (input : List Char) :
    (m.1.feed input).height ≤ heightLimit nestingLimit := by
  obtain ⟨pattern, hspells, rfl⟩ := compile_eq_ok_iff.mp h
  have hlow : Parser.Low {} :=
    ⟨⟨Group.all_empty _, trivial⟩, fun _ h => by cases h⟩
  have hheight := hspells.height_le Parser.roomy_empty hlow
  rw [← Pattern.height_matcher pattern tag] at hheight
  exact (Matcher.height_feed_le _ input).trans hheight

/-- A dot in groups, the outermost first in the list, each with so many stars behind it. -/
def tower : List Nat → List Char
  | [] => ['.']
  | k :: ks => '(' :: (tower ks ++ ')' :: List.replicate k '*')

def starTokens : Nat → List Token
  | 0 => []
  | k + 1 => ⟨.repLower, '*', 0, []⟩ :: .ofCount .repUpper unbounded :: starTokens k

def towerTokens : List Nat → List Token
  | [] => [.ofChar .charClass '.']
  | k :: ks => .ofChar .lParen '(' :: (towerTokens ks ++ closingToken :: starTokens k)

def starred (p : Pattern) : Nat → Pattern
  | 0 => p
  | k + 1 => starred (.repeated p (.atLeast 0)) k

def towerPattern : List Nat → Pattern
  | [] => .any
  | k :: ks => starred (towerPattern ks) k

theorem height_starred (p : Pattern) (k : Nat) : (starred p k).height = p.height + k := by
  induction k generalizing p with
  | zero => rfl
  | succ k ih => rw [starred, ih, Pattern.height, Nat.add_right_comm, Nat.add_assoc]

theorem height_tower (ks : List Nat) : (towerPattern ks).height = ks.sum := by
  induction ks with
  | nil => rfl
  | cons k ks ih => rw [towerPattern, height_starred, ih, List.sum_cons, Nat.add_comm]

/-- There is room for every group and for the stars behind it. -/
def Stands : Nat → List Nat → Prop
  | _, [] => True
  | room, k :: ks => 0 < room ∧ k ≤ room ∧ Stands (room - 1) ks

namespace TokenReader

theorem readsTo_stars (k : Nat) (before rest : List Char) : ∃ before',
    (fresh .extended false ⟨before, List.replicate k '*' ++ rest⟩).ReadsTo (starTokens k)
      (fresh .extended false ⟨before', rest⟩) := by
  induction k generalizing before with
  | zero => exact ⟨before, .refl _⟩
  | succ k ih =>
    obtain ⟨before', h⟩ := ih ('*' :: before)
    exact ⟨before', .step rfl (.step rfl h)⟩

theorem readsTo_tower (ks : List Nat) (before rest : List Char) : ∃ before',
    (fresh .extended false ⟨before, tower ks ++ rest⟩).ReadsTo (towerTokens ks)
      (fresh .extended false ⟨before', rest⟩) := by
  induction ks generalizing before rest with
  | nil => exact ⟨'.' :: before, .step rfl (.refl _)⟩
  | cons k ks ih =>
    let later := List.replicate k '*' ++ rest
    obtain ⟨b₁, hinside⟩ := ih ('(' :: before) (')' :: later)
    obtain ⟨b₂, hstars⟩ := readsTo_stars k (')' :: b₁) rest
    let inner : TokenReader := fresh .extended false ⟨'(' :: before, tower ks ++ ')' :: later⟩
    have hopen : (fresh .extended false ⟨before, '(' :: (tower ks ++ ')' :: later)⟩).read =
        .ok (some (.ofChar .lParen '(', (inner.inGroups 1).opened)) := rfl
    have hclose : ((fresh .extended false ⟨b₁, ')' :: later⟩).inGroups 1).read =
        .ok (some (closingToken, fresh .extended false ⟨')' :: b₁, later⟩)) := rfl
    have hgroup : (Lexicon.group (inner.inGroups 1).dialect).read (inner.inGroups 1).cursor =
        .ok none := by
      cases ks <;> rfl
    have hreads : (inner.inGroups 1).ReadsTo (towerTokens ks ++ closingToken :: starTokens k)
        (fresh .extended false ⟨b₂, rest⟩) := hinside.inGroups.trans (.step hclose hstars)
    refine ⟨b₂, ?_⟩
    rw [tower, List.cons_append, List.append_assoc, List.cons_append]
    exact .step hopen (hreads.opened rfl hgroup (by simp))

end TokenReader

namespace Parser

variable {g : Grammar} {us : List Token}

theorem takeAll_stars {bs es : List Pattern} {outer : List Group} (e : Pattern) {k stacked : Nat}
    (hk : outer.length + (stacked + k) ≤ nestingLimit) :
    takeAll g ⟨⟨bs, e :: es⟩, outer, stacked, .element⟩ (starTokens k ++ us) =
      takeAll g ⟨⟨bs, starred e k :: es⟩, outer, stacked + k, .element⟩ us := by
  induction k generalizing e stacked with
  | zero => rfl
  | succ k ih =>
    have htokens : starTokens (k + 1) = (Bounds.atLeast 0).tokens '*' ++ starTokens k := rfl
    rw [htokens, List.append_assoc, takeAll_repetition (by omega), ih _ (by omega), starred,
      Nat.add_right_comm, Nat.add_assoc]

/-- In a group a tower is read as it is elsewhere. -/
theorem takeAll_tower_groupStart (p : Parser) (hp : p.expecting = .element) (ks : List Nat) :
    (p.expect .groupStart).takeAll g (towerTokens ks ++ us) =
      p.takeAll g (towerTokens ks ++ us) := by
  refine takeAll_groupStart hp ?_ ?_ <;> cases ks
  · simp [towerTokens]
  · simp [towerTokens]
  · intro t ht
    obtain rfl : _ = t := Option.some.inj ht
    rfl
  · intro t ht
    obtain rfl : _ = t := Option.some.inj ht
    rfl

theorem takeAll_tower {ks : List Nat} {p : Parser} (hd : g.dialect = .extended)
    (hp : p.expecting = .element) (hks : Stands p.room ks) :
    p.takeAll g (towerTokens ks ++ us) =
      takeAll g { p.push (towerPattern ks) with stacked := ks.headD 0 } us := by
  induction ks generalizing p us with
  | nil =>
    refine takeAll_cons ?_
    rw [step, hp]
    dsimp only [element, Token.ofChar]
    rw [hd]
    rfl
  | cons k ks ih =>
    obtain ⟨hroom, hk, hks⟩ := hks
    let inner : Parser := { outer := p.group :: p.outer }
    have hopen : p.step g (.ofChar .lParen '(') = .ok (inner.expect .groupStart) := by
      rw [step, hp]
      refine if_neg ?_
      unfold room at hroom
      omega
    have hinner : inner.room = p.room - 1 := (Nat.sub_sub ..).symm
    have hclose : Parser.step g { inner.push (towerPattern ks) with stacked := ks.headD 0 }
        closingToken = .ok (p.push (towerPattern ks)) := rfl
    rw [towerTokens, List.cons_append, takeAll_cons hopen, List.append_assoc,
      takeAll_tower_groupStart inner rfl, ih rfl (hinner ▸ hks), List.cons_append,
      takeAll_cons hclose]
    have hlength : p.outer.length + (0 + k) ≤ nestingLimit := by
      unfold room at hroom hk
      omega
    refine (takeAll_stars (towerPattern ks) hlength).trans ?_
    rw [Nat.zero_add]
    rfl

end Parser

theorem compile_tower {ks : List Nat} (h : Stands nestingLimit ks) :
    ∃ m, compile [.extended] (String.ofList (tower ks)) = .ok m ∧ m.1.height = ks.sum := by
  obtain ⟨before, hreads⟩ := TokenReader.readsTo_tower ks [] []
  have hstart : TokenReader.ofPattern [.extended] (String.ofList (tower ks)) =
      .fresh .extended false ⟨[], tower ks⟩ := TokenReader.ofPattern_ofList _ _
  rw [List.append_nil, ← hstart] at hreads
  have htake : Parser.takeAll (.ofFlags [.extended]) {} (towerTokens ks ++ []) = .ok _ :=
    Parser.takeAll_tower rfl rfl h
  rw [List.append_nil] at htake
  have hfinish : Parser.finish { Parser.push {} (towerPattern ks) with stacked := ks.headD 0 } =
      .ok (towerPattern ks) := rfl
  refine ⟨_, compile_of_readsTo hreads rfl htake hfinish 0, ?_⟩
  rw [Pattern.height_matcher, height_tower]

/-- As many stars as there is room for, at every height. -/
def countdown : Nat → List Nat
  | 0 => []
  | n + 1 => (n + 1) :: countdown n

theorem stands_countdown (n : Nat) : Stands n (countdown n) := by
  induction n with
  | zero => trivial
  | succ n ih => exact ⟨Nat.succ_pos n, Nat.le_refl _, ih⟩

theorem sum_countdown (n : Nat) : (countdown n).sum = heightLimit n := by
  induction n with
  | zero => rfl
  | succ n ih => rw [countdown, List.sum_cons, ih, heightLimit, Nat.add_comm]

/-- A group with one star in it carries as many stars as the limit allows without it. -/
theorem not_height_le_nestingLimit : ¬ ∀ flags text tag m, compile flags text tag = .ok m →
    m.1.height ≤ nestingLimit := by
  intro h
  have hstands : Stands nestingLimit [256, 1] :=
    ⟨by decide, by decide, by decide, by decide, trivial⟩
  obtain ⟨m, hm, hheight⟩ := compile_tower hstands
  have hle := h _ _ _ _ hm
  rw [hheight] at hle
  exact absurd hle (by decide)

theorem Reaches.roomy {g : Grammar} {s s' : TokenReader} {p p' : Parser}
    (h : Reaches g s p s' p') (hp : p.Roomy) : p'.Roomy := by
  induction h with
  | refl => exact hp
  | step _ take _ ih => exact ih (hp.step take)

/-- The greatest number of repetitions nested in each other, whatever has been compiled and read.
The limit itself is one for each element: for the groups that are open around it together with the
repetitions that are stacked on it. -/
theorem isGreatest_height :
    IsGreatest {n | ∃ flags text tag m input, compile flags text tag = .ok m ∧
      (m.1.feed input).height = n} (nestingLimit * (nestingLimit + 1) / 2) ∧
    ∀ flags text s p, Reaches (.ofFlags flags) (.ofPattern flags text) {} s p →
      p.outer.length + p.stacked ≤ nestingLimit := by
  refine ⟨?_, fun flags text s p h => (h.roomy Parser.roomy_empty).le⟩
  rw [← heightLimit_eq]
  constructor
  · obtain ⟨m, hm, hheight⟩ := compile_tower (stands_countdown nestingLimit)
    exact ⟨_, _, _, m, [], hm, hheight.trans (sum_countdown _)⟩
  · rintro n ⟨flags, text, tag, m, input, hm, rfl⟩
    exact height_le_of_compile hm input

/-- Two stars on a dot in an open group. -/
theorem length_add_stacked_of_stars :
    ∃ s p, Reaches (.ofFlags [.extended]) (.ofPattern [.extended] "(.**") {} s p ∧
      p.outer.length + p.stacked = 3 ∧ 3 ≤ nestingLimit := by
  have hreaches : Reaches (.ofFlags [.extended]) (.ofPattern [.extended] "(.**") {} _ _ :=
    .step rfl rfl (.step rfl rfl (.step rfl rfl (.step rfl rfl (.step rfl rfl
      (.step rfl rfl (.refl _ _))))))
  exact ⟨_, _, hreaches, rfl, isGreatest_height.2 _ _ _ _ hreaches⟩

end IncrementalRegex
