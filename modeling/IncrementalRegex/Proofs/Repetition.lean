import IncrementalRegex.Proofs.Progress

namespace IncrementalRegex

/-- A word of a power of a language begins with a word that is not empty, and empty words among
the factors before that one can be left out. -/
theorem exists_split_of_mem_pow {α : Type} {L : Language α} {k : Nat} {w : List α} (hw : w ≠ [])
    (h : w ∈ L ^ k) : ∃ j u v, u ≠ [] ∧ u ∈ L ∧ v ∈ L ^ j ∧ u ++ v = w ∧
      (j + 1 = k ∨ (j < k ∧ [] ∈ L)) := by
  induction k with
  | zero => exact absurd h hw
  | succ k ih =>
    rw [pow_succ', Language.mem_mul] at h
    obtain ⟨u, hu, v, hv, rfl⟩ := h
    by_cases hn : u = []
    · subst hn
      obtain ⟨j, u', v', hne, hu', hv', he, hj⟩ := ih hv
      exact ⟨j, u', v', hne, hu', hv', he, Or.inr ⟨by omega, hu⟩⟩
    · exact ⟨k, u, v, hn, hu, hv, rfl, Or.inl rfl⟩

theorem nil_mem_pow {α : Type} {L : Language α} (h : [] ∈ L) (k : Nat) : [] ∈ L ^ k := by
  induction k with
  | zero => exact Language.nil_mem_one
  | succ k ih =>
    rw [pow_succ']
    exact Language.mem_mul.mpr ⟨[], h, [], ih, rfl⟩

theorem nil_mem_of_pow {α : Type} {L : Language α} {k : Nat} (h : [] ∈ L ^ (k + 1)) : [] ∈ L := by
  rw [pow_succ', Language.mem_mul] at h
  obtain ⟨u, hu, v, -, he⟩ := h
  rwa [(List.append_eq_nil_iff.mp he).1] at hu

theorem exists_mem_pow {α : Type} {L : Language α} (h : ∃ w, w ∈ L) (k : Nat) : ∃ w, w ∈ L ^ k := by
  obtain ⟨w, hw⟩ := h
  induction k with
  | zero => exact ⟨[], Language.nil_mem_one⟩
  | succ k ih =>
    obtain ⟨v, hv⟩ := ih
    rw [pow_succ']
    exact ⟨w ++ v, Language.mem_mul.mpr ⟨w, hw, v, hv, rfl⟩⟩

theorem Bounds.isUnbounded_iff (b : Bounds) : b.isUnbounded ↔ b.upper = unbounded := by
  simp [isUnbounded]

namespace Matcher

open MatchState

variable {α τ : Type}

/-- A body that waits for items, and a lower bound that fits it. -/
structure Repeatable (t : Matcher α τ) (b : Bounds) (n : Nat) : Prop where
  live : t.start.state.isLive
  nullable : t.start.state.isMatch → n = 0
  lower_le : n ≤ b.upper
  lower_lt : n < unbounded

/-- What a repetition keeps of its progressions. -/
structure Numbered (t : Matcher α τ) (b : Bounds) (n : Nat) (p : Matcher α τ × Nat) : Prop where
  again : p.1.start = t.start
  within : p.2 ≤ b.upper
  settled : b.isUnbounded → p.2 ≤ max n 1

variable {t : Matcher α τ} {b : Bounds} {n : Nat}

theorem Numbered.lt_upper {p : Matcher α τ × Nat} (hp : Numbered t b n p)
    (h : t.Repeatable b n) (hb : b.isUnbounded) : p.2 < b.upper := by
  have hs := hp.settled hb
  have hl := h.lower_lt
  rw [b.isUnbounded_iff.mp hb]
  have hu : 1 < unbounded := by decide
  omega

theorem next_le_upper {c : Nat} (hc : c < b.upper) : b.next n c ≤ b.upper := by
  unfold Bounds.next
  split_ifs <;> omega

theorem next_settled {c : Nat} (hb : b.isUnbounded) : b.next n c ≤ max n 1 := by
  unfold Bounds.next
  rw [if_pos hb]
  exact Nat.min_le_right ..

theorem Numbered.next {m : Matcher α τ} {c : Nat} (hm : m.start = t.start) (hc : c < b.upper) :
    Numbered t b n (m, b.next n c) :=
  ⟨hm, next_le_upper hc, next_settled⟩

def repetitionOffspring (t : Matcher α τ) (b : Bounds) (n : Nat) (p : Matcher α τ × Nat) :
    List (Matcher α τ × Nat) :=
  (repetitionKeep b n p).toList ++ (repetitionSpawn t b n p).toList

/-- A progression goes on itself, or the next repetition does, in its place or beside it. -/
theorem mem_repetitionOffspring {p q : Matcher α τ × Nat} (h : q ∈ repetitionOffspring t b n p) :
    (p.1.state.isLive ∧ q = p) ∨
      (p.2 ≠ b.upper ∧ (q.1 = p.1.start ∨ q.1 = t.start) ∧ q.2 = b.next n p.2) := by
  obtain ⟨m, c⟩ := p
  rcases List.mem_append.mp h with h | h
  · simp only [repetitionKeep, Option.mem_toList] at h
    cases hm : m.state with
    | matched | undecided =>
      simp only [hm] at h
      exact .inl ⟨by simp [isLive], (Option.some.inj h).symm⟩
    | mismatch => simp [hm] at h
    | finalMatch =>
      simp only [hm] at h
      split_ifs at h with hc
      obtain rfl := Option.some.inj h
      exact .inr ⟨hc, .inl rfl, rfl⟩
  · simp only [repetitionSpawn, Option.mem_toList] at h
    split_ifs at h with hc
    obtain rfl := Option.some.inj h
    exact .inr ⟨Nat.ne_of_lt hc.2, .inr rfl, rfl⟩

theorem valid_repetitionOffspring {p : Matcher α τ × Nat} (hp : Numbered t b n p) :
    ∀ q ∈ repetitionOffspring t b n p, Numbered t b n q := by
  have hagain := hp.again
  intro q hq
  rcases mem_repetitionOffspring hq with ⟨-, rfl⟩ | ⟨hc, hstart, hnext⟩
  · exact hp
  · have hlt : p.2 < b.upper := lt_of_le_of_ne hp.within hc
    obtain ⟨m, c⟩ := q
    obtain rfl : c = b.next n p.2 := hnext
    rcases hstart with hm | hm
    · obtain rfl : m = p.1.start := hm
      exact Numbered.next ((start_start p.1).trans hagain) hlt
    · obtain rfl : m = t.start := hm
      exact Numbered.next (start_start t) hlt

theorem isLive_repetitionOutcome_iff (t : Matcher α τ) {b : Bounds} {n : Nat} (hn : n ≤ b.upper)
    (p : Matcher α τ × Nat) :
    (repetitionOutcome b n p).isLive ↔ repetitionOffspring t b n p ≠ [] := by
  obtain ⟨m, c⟩ := p
  simp only [repetitionOutcome, repetitionOffspring, repetitionKeep, repetitionSpawn]
  cases m.state with
  | matched => simp only [isLive]; split_ifs <;> simp
  | finalMatch =>
    by_cases hc : c = b.upper
    · have hlower : ¬c < n := by omega
      simp [hc ▸ hlower, hc, isLive]
    · simp only [if_neg hc, isLive]
      split_ifs <;> simp
  | undecided => simp [isLive]
  | mismatch => simp [isLive]

variable [DecidableEq α] [DecidableEq τ] [ItemTest τ α]

/-- The inputs for which the repetitions after number `c` answer yes, with `n` as the lower bound in
effect. -/
def further (t : Matcher α τ) (b : Bounds) (n : Nat) : Aspect → Nat → Language α
  | .complete, c => {s | ∃ k, n ≤ c + k ∧ (b.isUnbounded ∨ c + k ≤ b.upper) ∧
      s ∈ t.start.words .complete ^ k}
  | .live, c => {s | ∃ k, (b.isUnbounded ∨ c + k < b.upper) ∧
      s ∈ t.start.words .complete ^ k * t.start.words .live}

variable {a : Aspect}

/-- The number given to the next repetition tells as much as one more would. -/
theorem further_next {c : Nat} (hc : c < b.upper) :
    further t b n a (b.next n c) = further t b n a (c + 1) := by
  have hle := b.upper_le_unbounded
  have hmin : min (c + 1) unbounded = c + 1 := by omega
  unfold Bounds.next
  cases hb : b.isUnbounded with
  | false => simp [hmin]
  | true =>
    rw [if_pos rfl, hmin]
    cases a with
    | complete =>
      have hk (k : Nat) : n ≤ min (c + 1) (max n 1) + k ↔ n ≤ c + 1 + k := by omega
      simp only [further, hb, true_or, true_and, hk]
      rfl
    | live =>
      simp only [further, hb, true_or, true_and]
      rfl

theorem nil_mem_further (h : t.Repeatable b n) {p : Matcher α τ × Nat} (hp : Numbered t b n p) :
    ([] ∈ further t b n .complete p.2 ↔ n ≤ p.2) ∧
    ([] ∈ further t b n .live p.2 ↔ p.2 < b.upper) := by
  constructor
  · constructor
    · intro hm
      obtain ⟨k, hk, -, hw⟩ := hm
      cases k with
      | zero => exact hk
      | succ k =>
        rw [h.nullable (nil_mem_of_pow hw)]
        exact Nat.zero_le _
    · intro hn
      exact ⟨0, hn, Or.inr hp.within, Language.nil_mem_one⟩
  · constructor
    · intro hm
      rcases hm with ⟨k, hb | hk, -⟩
      · exact hp.lt_upper h hb
      · omega
    · intro hc
      refine ⟨0, Or.inr hc, ?_⟩
      rw [pow_zero, one_mul]
      exact h.live

/-- An input that is not empty belongs to further repetitions if it belongs to the next one. -/
theorem mem_further (h : t.Repeatable b n) {p : Matcher α τ × Nat} (hp : Numbered t b n p)
    {s : List α} (hs : s ≠ []) :
    s ∈ further t b n a p.2 ↔
      p.2 < b.upper ∧ s ∈ carry a (further t b n a) (t.start, b.next n p.2) := by
  have hbound {k : Nat} (hk : b.isUnbounded ∨ p.2 + k < b.upper) : p.2 < b.upper := by
    rcases hk with hb | hk
    · exact hp.lt_upper h hb
    · omega
  cases a with
  | complete =>
    constructor
    · intro hm
      obtain ⟨k, hn, hk, hw⟩ := hm
      obtain ⟨j, u, v, hne, hu, hv, he, hj⟩ := exists_split_of_mem_pow hs hw
      have hc : p.2 < b.upper := by
        apply hbound (k := j)
        rcases hk with hb | hk
        · exact Or.inl hb
        · exact Or.inr (by omega)
      have hn' : n ≤ p.2 + 1 + j := by
        rcases hj with hj | ⟨-, hnil⟩
        · omega
        · rw [h.nullable hnil]
          exact Nat.zero_le _
      refine ⟨hc, Or.inr ⟨u, v, hne, hu, ?_, he⟩⟩
      rw [further_next hc]
      exact ⟨j, hn', hk.imp_right (by omega), hv⟩
    · intro hm
      rcases hm with ⟨hc, ⟨ha, -⟩ | ⟨u, v, -, hu, hv, rfl⟩⟩
      · cases ha
      · rw [further_next hc] at hv
        obtain ⟨j, hn, hj, hv⟩ := hv
        refine ⟨j + 1, by omega, hj.imp_right (by omega), ?_⟩
        rw [pow_succ']
        exact Language.mem_mul.mpr ⟨u, hu, v, hv, rfl⟩
  | live =>
    constructor
    · intro hm
      obtain ⟨k, hk, hw⟩ := hm
      obtain ⟨x, hx, y, hy, rfl⟩ := Language.mem_mul.mp hw
      have hc := hbound hk
      refine ⟨hc, ?_⟩
      by_cases hn : x = []
      · subst hn
        exact Or.inl ⟨rfl, hy⟩
      · obtain ⟨j, u, v, hne, hu, hv, rfl, hj⟩ := exists_split_of_mem_pow hn hx
        refine Or.inr ⟨u, v ++ y, hne, hu, ?_, (List.append_assoc u v y).symm⟩
        rw [further_next hc]
        exact ⟨j, hk.imp_right (by omega), Language.mem_mul.mpr ⟨v, hv, y, hy, rfl⟩⟩
    · intro hm
      rcases hm with ⟨hc, ⟨-, hw⟩ | ⟨u, v, -, hu, hv, rfl⟩⟩
      · refine ⟨0, Or.inr hc, ?_⟩
        rwa [pow_zero, one_mul]
      · rw [further_next hc] at hv
        obtain ⟨j, hj, hv⟩ := hv
        obtain ⟨x, hx, y, hy, rfl⟩ := Language.mem_mul.mp hv
        refine ⟨j + 1, hj.imp_right (by omega), ?_⟩
        rw [pow_succ', mul_assoc]
        exact Language.mem_mul.mpr ⟨u, hu, x ++ y, Language.mem_mul.mpr ⟨x, hx, y, hy, rfl⟩, rfl⟩

theorem advance_repetition (t : Matcher α τ) (b : Bounds) (n : Nat) (x : α) (s : MatchState)
    (live : List (Matcher α τ × Nat)) :
    ∃ live', advance x (repetition s t b n live) =
        repetition (.merge ((readNumbered x live).map (repetitionOutcome b n))) t b n live' ∧
      ∀ q, q ∈ live' ↔ ∃ p ∈ readNumbered x live, q ∈ repetitionOffspring t b n p := by
  refine ⟨_, by rw [advance], ?_⟩
  intro q
  simp only [List.mem_eraseDups, List.mem_append, List.mem_filterMap, repetitionOffspring,
    Option.mem_toList]
  grind

theorem aspect_repetitionOutcome (h : t.Repeatable b n) {p : Matcher α τ × Nat}
    (hp : Numbered t b n p) :
    a.of (repetitionOutcome b n p) ↔ [] ∈ carryOn a (further t b n a) p := by
  have hnil : [] ∈ further t b n a p.2 ↔
      (a = .complete ∧ n ≤ p.2) ∨ (a = .live ∧ p.2 < b.upper) := by
    cases a
    · simp [(nil_mem_further h hp).1]
    · simp [(nil_mem_further h hp).2]
  have hwithin := hp.within
  have hlower := h.lower_le
  obtain ⟨m, c⟩ := p
  rw [mem_carryOn, nil_mem_carry, hnil]
  simp only [repetitionOutcome]
  cases m.state <;> cases a <;> simp only [Aspect.of, isMatch, isLive] <;> grind

theorem mem_carryOn_repetition (h : t.Repeatable b n) {p : Matcher α τ × Nat}
    (hp : Numbered t b n p) {s : List α} (hs : s ≠ []) :
    s ∈ carryOn a (further t b n a) p ↔
      ∃ q ∈ repetitionOffspring t b n p, s ∈ carry a (further t b n a) q := by
  have hagain := hp.again
  have hwithin := hp.within
  have hdead : p.1.state.isLive = false → s ∉ carry a (further t b n a) p :=
    fun hl => notMem_carry hl hs
  rw [mem_carryOn, mem_further h hp hs]
  obtain ⟨m, c⟩ := p
  simp only [repetitionOffspring, repetitionKeep, repetitionSpawn]
  cases hm : m.state with
  | matched =>
    by_cases hc : c < b.upper <;> simp [isMatch, hc]
  | undecided => simp [isMatch]
  | mismatch =>
    have hno : s ∉ carry a (further t b n a) (m, c) := hdead (by rw [hm]; rfl)
    simp [isMatch, hno]
  | finalMatch =>
    have hno : s ∉ carry a (further t b n a) (m, c) := hdead (by rw [hm]; rfl)
    by_cases hc : c = b.upper
    · subst hc
      simp [isMatch, hno]
    · have hlt : c < b.upper := lt_of_le_of_ne hwithin hc
      simp [isMatch, hno, hc, hlt, hagain]

theorem combines_repetition (h : t.Repeatable b n) :
    Combines a (further t b n a) (fun s => repetition s t b n) (repetitionOutcome b n)
      (repetitionOffspring t b n) (Numbered t b n) where
  state _ _ := rfl
  step := advance_repetition t b n
  valid_read x p hp := ⟨(start_read p.1 x).trans hp.again, hp.within, hp.settled⟩
  valid _ hp := valid_repetitionOffspring hp
  now _ hp := aspect_repetitionOutcome h hp
  later _ hp _ hs := mem_carryOn_repetition h hp hs
  terminal p _ := eq_nil_of_not_live (isLive_repetitionOutcome_iff t h.lower_le p)

theorem further_of_nullable (hn : t.start.state.isMatch) :
    further t b 0 a 0 = further t b b.lower a 0 := by
  cases a with
  | live => rfl
  | complete =>
    ext w
    constructor
    · intro h
      obtain ⟨k, -, hk, hw⟩ := h
      have hle := b.lower_le_upper
      refine ⟨max k b.lower, by omega, hk.imp_right (by omega), ?_⟩
      obtain ⟨j, hj⟩ := Nat.exists_eq_add_of_le (Nat.le_max_left k b.lower)
      rw [hj, pow_add]
      exact Language.mem_mul.mpr ⟨w, hw, [], nil_mem_pow hn j, List.append_nil w⟩
    · intro h
      obtain ⟨k, -, hk, hw⟩ := h
      exact ⟨k, Nat.zero_le _, hk, hw⟩

/-- A repetition that waits for items answers yes as the repetitions after number 0 do. -/
theorem words_repetition_waiting (h : t.Repeatable b n) (hu : b.upper ≠ 0) {s : MatchState}
    (hl : s.isLive) (hm : s.isMatch ↔ n = 0) :
    (repetition s t b n [(t.start, 1)]).words a = further t b n a 0 := by
  have hzero : Numbered t b n (t.start, 0) := ⟨start_start t, Nat.zero_le _, fun _ => Nat.zero_le _⟩
  have hone : Numbered t b n (t.start, 1) :=
    ⟨start_start t, Nat.pos_of_ne_zero hu, fun _ => Nat.le_max_right ..⟩
  have hnext : b.next n 0 = 1 := by
    have h1 : min 1 unbounded = 1 := by decide
    unfold Bounds.next
    split_ifs <;> omega
  ext w
  by_cases hw : w = []
  · subst hw
    rw [nil_mem_words, state_repetition]
    cases a with
    | complete => rw [(nil_mem_further h hzero).1, Nat.le_zero]; exact hm
    | live => rw [(nil_mem_further h hzero).2]; simp [Aspect.of, hl, Nat.pos_of_ne_zero hu]
  · have hf := mem_further (a := a) h hzero hw
    rw [(combines_repetition h).mem_words (by simpa using hone) hl hw, hf, hnext]
    simp [Nat.pos_of_ne_zero hu]

/-- Where nothing may be repeated, or nothing but the empty word, the empty word is left. -/
theorem further_of_spent (hc : b.upper = 0 ∨ t.start.state = .finalMatch) :
    further t b b.lower .complete 0 = 1 ∧ further t b b.lower .live 0 = 0 := by
  have hlower := b.lower_le_upper
  rcases hc with hu | hf
  · have hb : b.isUnbounded = false := by
      simp only [Bounds.isUnbounded, hu]
      decide
    constructor <;> ext w
    · constructor
      · intro h
        obtain ⟨k, -, hk, hw⟩ := h
        obtain rfl : k = 0 := by simp [hb] at hk; omega
        exact hw
      · intro hw
        exact ⟨0, by omega, Or.inr (by omega), hw⟩
    · apply iff_of_false _ (Language.notMem_zero w)
      intro h
      obtain ⟨k, hk, -⟩ := h
      simp [hb, hu] at hk
  · obtain ⟨hcomplete, hlive⟩ := words_of_finalMatch hf
    constructor <;> ext w
    · simp only [further, hcomplete, one_pow, Nat.zero_add]
      constructor
      · intro h
        obtain ⟨_, -, -, hw⟩ := h
        exact hw
      · intro hw
        exact ⟨b.lower, Nat.le_refl _, Or.inr hlower, hw⟩
    · apply iff_of_false _ (Language.notMem_zero w)
      intro h
      obtain ⟨k, -, hw⟩ := h
      rw [hlive, mul_zero] at hw
      exact Language.notMem_zero w hw

/-- A repetition answers yes as its body does, as often as the bounds allow. -/
theorem words_start_repetition (ht : t.state = t.start.state) (hp : t.state ≠ .mismatch)
    (hb : b.lower < unbounded) (s : MatchState) (n : Nat) (live : List (Matcher α τ × Nat)) :
    (repetition s t b n live).start.words a = further t b b.lower a 0 := by
  by_cases hspent : b.upper = 0 ∨ t.start.state = .finalMatch
  · have hstart : (repetition s t b n live).start.state = .finalMatch := by
      by_cases hu : b.upper = 0
      · simp [start, hu]
      · have hf : t.state = .finalMatch := ht.trans (hspent.resolve_left hu)
        simp [start, hu, hf]
    obtain ⟨hcomplete, hlive⟩ := words_of_finalMatch hstart
    obtain ⟨hcomplete', hlive'⟩ := further_of_spent hspent
    cases a
    · exact hcomplete.trans hcomplete'.symm
    · exact hlive.trans hlive'.symm
  · obtain ⟨hu, hf⟩ := not_or.mp hspent
    simp only [start, if_neg hu]
    cases hs : t.state with
    | finalMatch => exact absurd (ht ▸ hs) hf
    | mismatch => contradiction
    | undecided =>
      rw [ht] at hs
      have h : t.Repeatable b b.lower :=
        ⟨by rw [hs]; rfl, by rw [hs]; simp [isMatch], b.lower_le_upper, hb⟩
      apply words_repetition_waiting h hu
      · split_ifs <;> rfl
      · split_ifs with hz <;> simp [isMatch, hz]
    | matched =>
      rw [ht] at hs
      have h : t.Repeatable b 0 :=
        ⟨by rw [hs]; rfl, fun _ => rfl, Nat.zero_le _, by decide⟩
      rw [← further_of_nullable (by rw [hs]; rfl)]
      exact words_repetition_waiting h hu rfl (by simp [isMatch])

end Matcher
end IncrementalRegex
