import IncrementalRegex.Proofs.Run
import IncrementalRegex.Regex

namespace IncrementalRegex
namespace Regex

/-- `longest` is the length of the longest prefix of `text` that matches, among those of at most
`bound` characters. -/
def IsLongest (r : Regex) (text : List Char) (bound : Nat) (longest : Option Nat) : Prop :=
  match longest with
  | none => ∀ k ≤ bound, r.isMatch (text.take k) = false
  | some n => n ≤ bound ∧ r.isMatch (text.take n) ∧ ∀ k ≤ bound, r.isMatch (text.take k) → k ≤ n

variable {r : Regex} {text : List Char}

theorem isLongest_zero :
    r.IsLongest text 0 (if r.matcher.start.state.isMatch then some 0 else none) := by
  have hz : r.isMatch (text.take 0) = r.matcher.start.state.isMatch := rfl
  cases hm : r.matcher.start.state.isMatch with
  | true => exact ⟨Nat.le_refl 0, hz.trans hm, fun k hk _ => hk⟩
  | false =>
    intro k hk
    obtain rfl := Nat.le_zero.mp hk
    exact hz.trans hm

/-- A bound can be raised as long as nothing longer matches. -/
theorem isLongest_of_le {n bound : Nat} {longest : Option Nat} (h : r.IsLongest text n longest)
    (hn : n ≤ bound) (hno : ∀ k, n < k → k ≤ bound → r.isMatch (text.take k) = false) :
    r.IsLongest text bound longest := by
  have hcases {k : Nat} (hk : k ≤ bound) : k ≤ n ∨ r.isMatch (text.take k) = false :=
    (Nat.lt_or_ge n k).elim (fun h => Or.inr (hno k h hk)) Or.inl
  cases longest with
  | none => exact fun k hk => (hcases hk).elim (h k) id
  | some l =>
    refine ⟨Nat.le_trans h.1 hn, h.2.1, fun k hk hmatch => ?_⟩
    rcases hcases hk with hk | hk
    · exact h.2.2 k hk hmatch
    · rw [hk] at hmatch
      contradiction

theorem isLongest_succ {n : Nat} {longest : Option Nat} (h : r.IsLongest text n longest) :
    r.IsLongest text (n + 1)
      (if r.isMatch (text.take (n + 1)) then some (n + 1) else longest) := by
  cases hm : r.isMatch (text.take (n + 1)) with
  | true => exact ⟨Nat.le_refl _, hm, fun k hk _ => hk⟩
  | false =>
    apply isLongest_of_le h (Nat.le_succ n)
    intro k hlt hle
    obtain rfl : k = n + 1 := by omega
    exact hm

/-- A terminal state rules out every longer match. -/
theorem isMatch_of_terminal {read more : List Char}
    (h : (r.matcher.start.feed (read.map r.seen)).state.isTerminal) (hmore : more ≠ []) :
    r.isMatch (read ++ more) = false := by
  have hdead : (r.matcher.start.feed (read.map r.seen)).state.isLive = false := by
    simpa [MatchState.isTerminal] using h
  rw [isMatch, Matcher.accepts, List.map_append, Matcher.feed_append,
    Matcher.state_feed_of_not_live hdead (by simpa using hmore)]
  rfl

/-- The longest match so far, and the matcher that has read so far, give the longest match. -/
theorem longestFrom_spec {read rest : List Char} {longest : Option Nat}
    (h : r.IsLongest (read ++ rest) read.length longest) :
    r.IsLongest (read ++ rest) (read ++ rest).length
      (r.longestFrom (r.matcher.start.feed (read.map r.seen)) read.length longest rest) := by
  induction rest generalizing read longest with
  | nil => simpa [longestFrom] using h
  | cons c rest ih =>
    rw [longestFrom]
    split_ifs with hterminal
    · apply isLongest_of_le h (by simp)
      intro k hk hbound
      obtain ⟨j, rfl⟩ := Nat.exists_eq_add_of_lt hk
      rw [Nat.add_assoc, List.take_length_add_append]
      exact isMatch_of_terminal hterminal (by simp)
    · have hsplit : read ++ c :: rest = read ++ [c] ++ rest := List.append_cons ..
      have hlength : read.length + 1 = (read ++ [c]).length := by simp
      have hfeed : (r.matcher.start.feed (read.map r.seen)).read (r.seen c) =
          r.matcher.start.feed ((read ++ [c]).map r.seen) := by
        rw [List.map_append, Matcher.feed_append]
        rfl
      have hnext := isLongest_succ h
      rw [hsplit, hlength, List.take_left' rfl] at hnext
      dsimp only
      rw [hsplit, hlength, hfeed]
      exact ih hnext

theorem matchLength_spec (r : Regex) (text : List Char) :
    r.IsLongest text text.length (r.matchLength text) :=
  @longestFrom_spec r [] text _ isLongest_zero

theorem isMatch_of_matchLength_none (h : r.matchLength text = none) {found after : List Char}
    (ht : text = found ++ after) : r.isMatch found = false := by
  have hlongest := matchLength_spec r text
  rw [h] at hlongest
  subst ht
  simpa using hlongest found.length (by simp)

theorem byteLength_cons (c : Char) (text : List Char) :
    byteLength (c :: text) = c.utf8Size + byteLength text := rfl

theorem byteLength_eq (text : List Char) : byteLength text = (String.ofList text).utf8ByteSize := by
  induction text with
  | nil => rfl
  | cons c text ih =>
    rw [← List.singleton_append, String.ofList_append, String.utf8ByteSize_append, ← ih,
      ← String.singleton_eq_ofList, String.utf8ByteSize_singleton]
    rfl

/-- `found`, between `before` and `after`, is the leftmost part of `text` that matches, and of those
the longest. -/
structure IsLeftmostLongest (r : Regex) (text before found after : List Char) : Prop where
  text_eq : text = before ++ found ++ after
  isMatch : r.isMatch found
  leftmost : ∀ b f a, text = b ++ f ++ a → r.isMatch f → before.length ≤ b.length
  longest : ∀ f a, found ++ after = f ++ a → r.isMatch f → f.length ≤ found.length

theorem IsLeftmostLongest.unique {b f a b' f' a' : List Char}
    (h : r.IsLeftmostLongest text b f a) (h' : r.IsLeftmostLongest text b' f' a') :
    b = b' ∧ f = f' := by
  have ht : b ++ (f ++ a) = b' ++ (f' ++ a') := by
    rw [← List.append_assoc, ← List.append_assoc, ← h.text_eq, ← h'.text_eq]
  have hb : b.length = b'.length :=
    Nat.le_antisymm (h.leftmost b' f' a' h'.text_eq h'.isMatch)
      (h'.leftmost b f a h.text_eq h.isMatch)
  obtain ⟨rfl, hrest⟩ := List.append_inj ht hb
  have hf : f.length = f'.length :=
    Nat.le_antisymm (h'.longest f a hrest.symm h.isMatch) (h.longest f' a' hrest h'.isMatch)
  exact ⟨rfl, (List.append_inj hrest hf).1⟩

theorem isLeftmostLongest_prefix {n : Nat} (h : r.matchLength text = some n) :
    r.IsLeftmostLongest text [] (text.take n) (text.drop n) := by
  have hlongest := matchLength_spec r text
  rw [h] at hlongest
  obtain ⟨hn, hm, hmax⟩ := hlongest
  refine ⟨(List.take_append_drop n text).symm, hm, fun _ _ _ _ _ => Nat.zero_le _, ?_⟩
  intro f a ht hf
  rw [List.take_append_drop] at ht
  rw [List.length_take_of_le hn]
  apply hmax f.length (by simp [ht])
  rwa [ht, List.take_left' rfl]

/-- Where no prefix matches, the search goes on behind the first character. -/
theorem IsLeftmostLongest.cons {before found after : List Char} {c : Char}
    (h : r.IsLeftmostLongest text before found after) (hl : r.matchLength (c :: text) = none) :
    r.IsLeftmostLongest (c :: text) (c :: before) found after := by
  refine ⟨by rw [h.text_eq]; rfl, h.isMatch, ?_, h.longest⟩
  intro b f a ht hf
  cases b with
  | nil =>
    have hno := @isMatch_of_matchLength_none r _ hl f a ht
    rw [hf] at hno
    contradiction
  | cons b bs =>
    injection ht with _ ht
    exact Nat.succ_le_succ (h.leftmost bs f a ht hf)

theorem findFrom_of_some {start n : Nat} (h : r.matchLength text = some n) :
    r.findFrom start text = some (start, start + byteLength (text.take n)) := by
  cases text <;> simp [findFrom, h]

theorem findFrom_cons_of_none {start : Nat} {c : Char} (h : r.matchLength (c :: text) = none) :
    r.findFrom start (c :: text) = r.findFrom (start + c.utf8Size) text := by
  rw [findFrom, h]

theorem findFrom_none {start : Nat} (h : r.findFrom start text = none)
    {before found after : List Char} (ht : text = before ++ found ++ after) :
    r.isMatch found = false := by
  induction text generalizing start before with
  | nil =>
    cases hl : r.matchLength [] with
    | none =>
      obtain ⟨hb, -⟩ := List.append_eq_nil_iff.mp ht.symm
      obtain ⟨-, rfl⟩ := List.append_eq_nil_iff.mp hb
      exact isMatch_of_matchLength_none hl (List.append_nil []).symm
    | some n =>
      rw [findFrom_of_some hl] at h
      contradiction
  | cons c text ih =>
    cases hl : r.matchLength (c :: text) with
    | some n =>
      rw [findFrom_of_some hl] at h
      contradiction
    | none =>
      rw [findFrom_cons_of_none hl] at h
      cases before with
      | nil => exact isMatch_of_matchLength_none hl ht
      | cons b before =>
        injection ht with _ ht
        exact ih h ht

theorem findFrom_some {start : Nat} {range : Nat × Nat} (h : r.findFrom start text = some range) :
    ∃ before found after, r.IsLeftmostLongest text before found after ∧
      range = (start + byteLength before, start + byteLength (before ++ found)) := by
  induction text generalizing start with
  | nil =>
    cases hl : r.matchLength [] with
    | none => simp [findFrom, hl] at h
    | some n =>
      rw [findFrom_of_some hl] at h
      cases h
      exact ⟨[], _, _, isLeftmostLongest_prefix hl, rfl⟩
  | cons c text ih =>
    cases hl : r.matchLength (c :: text) with
    | some n =>
      rw [findFrom_of_some hl] at h
      cases h
      exact ⟨[], _, _, isLeftmostLongest_prefix hl, rfl⟩
    | none =>
      rw [findFrom_cons_of_none hl] at h
      obtain ⟨before, found, after, hbest, rfl⟩ := ih h
      refine ⟨c :: before, found, after, hbest.cons hl, ?_⟩
      simp only [List.cons_append, byteLength_cons, Nat.add_assoc]

theorem find_eq_none_iff : r.find text = none ↔
    ∀ before found after, text = before ++ found ++ after → r.isMatch found = false := by
  constructor
  · intro h before found after ht
    exact findFrom_none h ht
  · intro hno
    cases hf : r.find text with
    | none => rfl
    | some range =>
      obtain ⟨before, found, after, hbest, -⟩ := findFrom_some hf
      have hm := hbest.isMatch
      rw [hno before found after hbest.text_eq] at hm
      contradiction

theorem IsLeftmostLongest.find_eq {before found after : List Char}
    (h : r.IsLeftmostLongest text before found after) :
    r.find text = some (byteLength before, byteLength (before ++ found)) := by
  cases hf : r.find text with
  | none =>
    have hm := h.isMatch
    rw [find_eq_none_iff.mp hf before found after h.text_eq] at hm
    contradiction
  | some range =>
    obtain ⟨b, f, a, hbest, rfl⟩ := findFrom_some hf
    obtain ⟨rfl, rfl⟩ := h.unique hbest
    simp

theorem isLeftmostLongest_whole (h : r.isMatch text) : r.IsLeftmostLongest text [] text [] := by
  refine ⟨by simp, h, fun _ _ _ _ _ => Nat.zero_le _, ?_⟩
  intro f a ht _
  have hlength : (text ++ []).length = f.length + a.length := by rw [ht, List.length_append]
  rw [List.append_nil] at hlength
  omega

/-- There is no range if nothing matches, and else it is that of the leftmost match, and of those
the longest; so a text that matches as a whole is found as a whole. -/
theorem find_spec (r : Regex) (text : List Char) :
    (r.find text = none ↔
      ∀ before found after, text = before ++ found ++ after → r.isMatch found = false) ∧
    (∀ range, r.find text = some range ↔
      ∃ before found after, r.IsLeftmostLongest text before found after ∧
        range = ((String.ofList before).utf8ByteSize,
          (String.ofList (before ++ found)).utf8ByteSize)) ∧
    (r.isMatch text → r.find text = some (0, (String.ofList text).utf8ByteSize)) := by
  simp only [← byteLength_eq]
  refine ⟨find_eq_none_iff, fun range => ⟨?_, ?_⟩, ?_⟩
  · intro h
    obtain ⟨before, found, after, hbest, rfl⟩ := findFrom_some h
    exact ⟨before, found, after, hbest, by simp⟩
  · intro hx
    obtain ⟨before, found, after, hbest, rfl⟩ := hx
    exact hbest.find_eq
  · intro hm
    exact (isLeftmostLongest_whole hm).find_eq

theorem find_whole_of_accented :
    (⟨"é+", [], .replicate (.one 'é') (.atLeast 1)⟩ : Regex).find ['é', 'é'] = some (0, 4) :=
  (find_spec _ ['é', 'é']).2.2 (by decide)

end Regex
end IncrementalRegex
