import Greenlight.Tramp.AllocationSpec
import Mathlib.Data.List.Perm.Subperm
import Mathlib.Algebra.Order.BigOperators.Group.List
import Mathlib.Algebra.Order.Ring.Nat

/-!
# Which payments the allocation misses

The search takes the channels in their order and never skips one that could carry a part of the remaining
amount, so it is a greedy choice and not a complete one.  `shortfall_append_le` says what it does find: an
amount between the minima and the balances of the first channels of the list, whatever stands behind
them.  Sorting in both directions then covers every choice that uses the first channels of one of the two
orders, where channels whose minimum exceeds the target do not count; a choice that the caller misses leaves a
gap in both orders (`findAllocation_gap`), and three channels are enough for one.
-/

namespace Greenlight.Tramp

/-- A channel that passes the two filters of `trampolinepay`. -/
def Channel.Passed (ch : Channel) : Prop := 0 < ch.spendableMsat ∧ ch.minHtlcOutMsat < ch.spendableMsat

/-- Contributions of some of the channels, each taken at most once and within its bounds, that make up the
target. -/
structure Choice (channels : List Channel) (targetMsat : ℕ) (alloc : List ChannelContribution) : Prop where
  channels : (alloc.map (·.channel)).Subperm channels
  bounds : ∀ e ∈ alloc, max 1 e.channel.minHtlcOutMsat ≤ e.contribMsat ∧
    e.contribMsat ≤ e.channel.spendableMsat
  total : total alloc = targetMsat

def eligible (channels : List Channel) (targetMsat : ℕ) : List Channel :=
  channels.filter (·.minHtlcOutMsat ≤ targetMsat)

/-- The channels of the choice are not the first ones of the order, for no number of them: it leaves out an
eligible channel that stands before one that it uses. -/
def LeavesGap (order : List Channel) (targetMsat : ℕ) (alloc : List ChannelContribution) : Prop :=
  ∀ k, ¬ (alloc.map (·.channel)).Perm ((eligible order targetMsat).take k)

def minima (chs : List Channel) : ℕ := (chs.map (·.minHtlcOutMsat)).sum

def balances (chs : List Channel) : ℕ := (chs.map (·.spendableMsat)).sum

@[simp] theorem minima_cons (ch : Channel) (chs : List Channel) :
    minima (ch :: chs) = ch.minHtlcOutMsat + minima chs := by simp [minima]

@[simp] theorem balances_cons (ch : Channel) (chs : List Channel) :
    balances (ch :: chs) = ch.spendableMsat + balances chs := by simp [balances]

theorem Channel.Passed.usable {ch : Channel} (h : ch.Passed) : ch.Usable := by
  unfold Channel.Passed at h
  unfold Channel.Usable
  omega

/-! ### A failed search -/

theorem findAllocation_eq_none_iff {chs : List Channel} {t : ℕ} (h0 : 0 < t) :
    findAllocation chs t = some none ↔ capacity chs < t ∨ 0 < shortfall chs t := by
  obtain ⟨r, al, hrun, hs⟩ := tryAllocate_spec chs t []
  rw [List.nil_append] at hrun
  simp only [findAllocation, h0.ne', if_false, hrun]
  cases hs with
  | impossible hc _ => exact ⟨fun _ => Or.inl hc, fun _ => rfl⟩
  | needSpace _ hp _ => exact ⟨fun _ => Or.inr hp, fun _ => rfl⟩
  | success hc hp _ _ _ =>
    refine ⟨fun h => ?_, fun h => ?_⟩
    · cases h
    · omega

/-! ### What the first channels can carry -/

theorem balances_le_capacity : ∀ (front rest : List Channel), (∀ ch ∈ front, ch.Usable) →
    balances front ≤ capacity (front ++ rest) := by
  intro front rest
  induction front with
  | nil => intro _; simp [balances]
  | cons ch front ih =>
    intro h
    have hch : ch.Usable := h ch (List.mem_cons_self ..)
    have := ih fun c hc => h c (List.mem_cons_of_mem _ hc)
    rw [List.cons_append, capacity_usable hch, balances_cons]
    omega

/-- The search misses at most what the minima of the first channels exceed the target by, if their balances
cover it. -/
theorem shortfall_append_le : ∀ (front rest : List Channel) (t : ℕ), (∀ ch ∈ front, ch.Usable) →
    t ≤ balances front → shortfall (front ++ rest) t ≤ minima front - t := by
  intro front rest
  induction front with
  | nil =>
    intro t _ ht
    have h0 : t = 0 := by simpa [balances] using ht
    simp [h0]
  | cons ch front ih =>
    intro t h ht
    have hch : ch.Usable := h ch (List.mem_cons_self ..)
    have hb := hch.bounds
    rw [List.cons_append]
    rw [balances_cons] at ht
    rw [minima_cons]
    rcases Nat.eq_zero_or_pos t with rfl | h0
    · simp
    rcases Nat.lt_or_ge t ch.minHtlcOutMsat with hlt | hge
    · rw [shortfall_below hch h0 hlt]
      split <;> omega
    · rcases Nat.lt_or_ge ch.spendableMsat t with hu | hu
      · -- the slack of the channel is what separates its minimum from its balance
        have hrest := ih (t - ch.spendableMsat) (fun c hc => h c (List.mem_cons_of_mem _ hc)) (by omega)
        rw [shortfall_above hch hu]
        omega
      · rw [shortfall_within hge hu hch]
        omega

/-- The first channels of a list carry every amount between their minima and their balances. -/
theorem found_of_prefix {front chs : List Channel} {t : ℕ} (hp : front <+: chs) (hu : ∀ ch ∈ chs, ch.Usable)
    (hl : minima front ≤ t) (hb : t ≤ balances front) : t ≤ capacity chs ∧ shortfall chs t = 0 := by
  obtain ⟨rest, rfl⟩ := hp
  have hfront : ∀ ch ∈ front, ch.Usable := fun ch hch => hu ch (List.mem_append_left _ hch)
  have hc := balances_le_capacity front rest hfront
  have hs := shortfall_append_le front rest t hfront hb
  omega

/-! ### The two orders -/

/-- In a list in falling order the channels above the target come first, and are skipped. -/
theorem found_of_descending {front : List Channel} {t : ℕ} (h0 : 0 < t) (hl : minima front ≤ t)
    (hb : t ≤ balances front) : ∀ {chs : List Channel},
    chs.Pairwise (fun a b => b.spendableMsat ≤ a.spendableMsat) → (∀ ch ∈ chs, ch.Usable) →
    front <+: eligible chs t → t ≤ capacity chs ∧ shortfall chs t = 0 := by
  intro chs
  induction chs with
  | nil =>
    intro _ _ hp
    have : front = [] := List.prefix_nil.1 hp
    subst this
    simp only [balances, List.map_nil, List.sum_nil] at hb
    omega
  | cons ch rest ih =>
    intro hs hu hp
    obtain ⟨hhead, hrest⟩ := List.pairwise_cons.1 hs
    have hch : ch.Usable := hu ch (List.mem_cons_self ..)
    have hbd := hch.bounds
    rcases Nat.lt_or_ge t ch.minHtlcOutMsat with hlt | hge
    · have hp' : front <+: eligible rest t := by
        simpa [eligible, List.filter_cons, hlt.not_ge] using hp
      have hfound := ih hrest (fun c hc => hu c (List.mem_cons_of_mem _ hc)) hp'
      rw [capacity_usable hch, shortfall_below hch h0 hlt, if_pos hfound]
      omega
    rcases Nat.lt_or_ge ch.spendableMsat t with hlt | hcross
    · -- from here on every balance is below the target, so every channel is eligible
      have hall : eligible (ch :: rest) t = ch :: rest := by
        refine List.filter_eq_self.2 fun c hc => ?_
        have hcb := (hu c hc).bounds
        have hle : c.spendableMsat ≤ ch.spendableMsat := by
          rcases List.mem_cons.1 hc with rfl | hc
          · exact le_rfl
          · exact hhead c hc
        simp only [decide_eq_true_eq]
        omega
      rw [hall] at hp
      exact found_of_prefix hp hu hl hb
    · refine ⟨by rw [capacity_usable hch]; omega, shortfall_within hge hcross hch⟩

/-- The channels that are kept by a test that fails from some point of the list on are the first ones. -/
theorem filter_prefix {α : Type*} {R : α → α → Prop} {p : α → Bool} :
    ∀ {l : List α}, l.Pairwise R → (∀ a ∈ l, ∀ b ∈ l, R a b → p b → p a) → l.filter p <+: l := by
  intro l
  induction l with
  | nil => intro _ _; exact List.prefix_rfl
  | cons a l ih =>
    intro hs hR
    obtain ⟨hhead, hrest⟩ := List.pairwise_cons.1 hs
    cases ha : p a with
    | true =>
      have hl := ih hrest fun x hx y hy => hR x (List.mem_cons_of_mem _ hx) y (List.mem_cons_of_mem _ hy)
      simpa [List.filter_cons, ha] using hl
    | false =>
      have hnone : l.filter p = [] := by
        refine List.filter_eq_nil_iff.2 fun b hb hpb => ?_
        have := hR a (List.mem_cons_self ..) b (List.mem_cons_of_mem _ hb) (hhead b hb) hpb
        simp [ha] at this
      simp [ha, hnone]

/-- In a list in rising order that has no channel across the target, the eligible channels come first. -/
theorem found_of_ascending {front chs : List Channel} {t : ℕ} (hl : minima front ≤ t) (hb : t ≤ balances front)
    (hs : chs.Pairwise (fun a b => a.spendableMsat ≤ b.spendableMsat)) (hu : ∀ ch ∈ chs, ch.Usable)
    (hcross : ∀ ch ∈ chs, ¬ (ch.minHtlcOutMsat ≤ t ∧ t ≤ ch.spendableMsat)) (hp : front <+: eligible chs t) :
    t ≤ capacity chs ∧ shortfall chs t = 0 := by
  have hfirst : eligible chs t <+: chs := by
    refine filter_prefix hs fun a ha b hb hab hpb => ?_
    have hca := hcross a ha
    have hcb := hcross b hb
    have hua := (hu a ha).bounds
    simp only [decide_eq_true_eq] at hpb ⊢
    omega
  exact found_of_prefix (hp.trans hfirst) hu hl hb

theorem descending_pairwise (channels : List Channel) :
    (channels.mergeSort descendingLe).Pairwise (fun a b => b.spendableMsat ≤ a.spendableMsat) := by
  have htrans : ∀ a b c : Channel, descendingLe a b → descendingLe b c → descendingLe a c := by
    simp only [descendingLe, decide_eq_true_eq]
    omega
  have htotal : ∀ a b : Channel, (descendingLe a b || descendingLe b a) := by
    simp only [descendingLe, Bool.or_eq_true, decide_eq_true_eq]
    omega
  refine (List.pairwise_mergeSort htrans htotal channels).imp fun h => ?_
  simp only [descendingLe, decide_eq_true_eq] at h
  omega

theorem ascending_pairwise (channels : List Channel) :
    (channels.mergeSort ascendingLe).Pairwise (fun a b => a.spendableMsat ≤ b.spendableMsat) := by
  have htrans : ∀ a b c : Channel, ascendingLe a b → ascendingLe b c → ascendingLe a c := by
    simp only [ascendingLe, decide_eq_true_eq]
    omega
  have htotal : ∀ a b : Channel, (ascendingLe a b || ascendingLe b a) := by
    simp only [ascendingLe, Bool.or_eq_true, decide_eq_true_eq]
    omega
  refine (List.pairwise_mergeSort htrans htotal channels).imp fun h => ?_
  simp only [ascendingLe, decide_eq_true_eq] at h
  omega

/-! ### Choices -/

section Choices

variable {channels : List Channel} {targetMsat : ℕ} {alloc : List ChannelContribution}

theorem minima_le_total : ∀ {alloc : List ChannelContribution},
    (∀ e ∈ alloc, max 1 e.channel.minHtlcOutMsat ≤ e.contribMsat ∧
      e.contribMsat ≤ e.channel.spendableMsat) →
    minima (alloc.map (·.channel)) ≤ total alloc ∧ total alloc ≤ balances (alloc.map (·.channel)) := by
  intro alloc
  induction alloc with
  | nil => intro _; simp [minima, balances]
  | cons e alloc ih =>
    intro h
    have he := h e (List.mem_cons_self ..)
    have hrest := ih fun e' he' => h e' (List.mem_cons_of_mem _ he')
    simp only [List.map_cons, minima_cons, balances_cons, total_cons]
    omega

theorem Choice.between (h : Choice channels targetMsat alloc) {front : List Channel}
    (hp : (alloc.map (·.channel)).Perm front) : minima front ≤ targetMsat ∧ targetMsat ≤ balances front := by
  have hsum := minima_le_total h.bounds
  have hm : minima (alloc.map (·.channel)) = minima front := (hp.map _).sum_eq
  have hb : balances (alloc.map (·.channel)) = balances front := (hp.map _).sum_eq
  rw [h.total] at hsum
  omega

theorem contrib_le_total {e : ChannelContribution} (he : e ∈ alloc) : e.contribMsat ≤ total alloc :=
  List.single_le_sum (by simp) _ (List.mem_map_of_mem he)

theorem Choice.subperm_eligible (h : Choice channels targetMsat alloc) :
    (alloc.map (·.channel)).Subperm (eligible channels targetMsat) := by
  have hall : (alloc.map (·.channel)).filter (·.minHtlcOutMsat ≤ targetMsat) = alloc.map (·.channel) := by
    refine List.filter_eq_self.2 fun ch hch => ?_
    obtain ⟨e, he, rfl⟩ := List.mem_map.1 hch
    have hb := (h.bounds e he).1
    have ht := contrib_le_total he
    rw [h.total] at ht
    simp only [decide_eq_true_eq]
    omega
  have hf := h.channels.filter (·.minHtlcOutMsat ≤ targetMsat)
  rwa [hall] at hf

theorem descending_crossing (hu : ∀ ch ∈ channels, ch.Usable) (h0 : 0 < targetMsat)
    (hnone : findAllocationDescendingOrder channels targetMsat = some none) :
    ∀ ch ∈ channels, ¬ (ch.minHtlcOutMsat ≤ targetMsat ∧ targetMsat ≤ ch.spendableMsat) := by
  rintro ch hch ⟨hl, hb⟩
  have hs := descending_pairwise channels
  have hu' : ∀ c ∈ channels.mergeSort descendingLe, c.Usable := fun c hc => hu c (List.mem_mergeSort.1 hc)
  have hmem : ch ∈ eligible (channels.mergeSort descendingLe) targetMsat := by
    simp [eligible, List.mem_mergeSort.2 hch, hl]
  -- the first eligible channel has the largest balance
  obtain ⟨first, others, hfirst⟩ := List.exists_cons_of_ne_nil (List.ne_nil_of_mem hmem)
  have hin : first ∈ eligible (channels.mergeSort descendingLe) targetMsat := by simp [hfirst]
  have hmin : first.minHtlcOutMsat ≤ targetMsat := by simpa using (List.mem_filter.1 hin).2
  have hbal : targetMsat ≤ first.spendableMsat := by
    have hpair := hs.filter (·.minHtlcOutMsat ≤ targetMsat)
    rw [← eligible, hfirst] at hpair
    rw [hfirst] at hmem
    rcases List.mem_cons.1 hmem with rfl | hmem
    · exact hb
    · exact hb.trans ((List.pairwise_cons.1 hpair).1 ch hmem)
  have hprefix : [first] <+: eligible (channels.mergeSort descendingLe) targetMsat := by simp [hfirst]
  have hfound := found_of_descending h0 (by simpa [minima] using hmin) (by simpa [balances] using hbal) hs hu'
    hprefix
  have := (findAllocation_eq_none_iff h0).1 hnone
  omega

/-- **A choice that both searches miss has a gap in both orders.**  It uses more than one channel, and there
are at least three channels that could take part. -/
theorem findAllocation_gap (hpass : ∀ ch ∈ channels, ch.Passed) (h0 : 0 < targetMsat)
    (hasc : findAllocationAscendingOrder channels targetMsat = some none)
    (hdesc : findAllocationDescendingOrder channels targetMsat = some none)
    (h : Choice channels targetMsat alloc) :
    LeavesGap (channels.mergeSort ascendingLe) targetMsat alloc ∧
      LeavesGap (channels.mergeSort descendingLe) targetMsat alloc ∧
      1 < alloc.length ∧ 2 < (eligible channels targetMsat).length := by
  have hu : ∀ ch ∈ channels, ch.Usable := fun ch hch => (hpass ch hch).usable
  -- no channel takes the target alone, or the descending order had found it
  have hcross := descending_crossing hu h0 hdesc
  have hgapDesc : LeavesGap (channels.mergeSort descendingLe) targetMsat alloc := by
    intro k hk
    have hb := h.between hk
    have hfound := found_of_descending h0 hb.1 hb.2 (descending_pairwise channels)
      (fun c hc => hu c (List.mem_mergeSort.1 hc)) (List.take_prefix k _)
    have := (findAllocation_eq_none_iff h0).1 hdesc
    omega
  have hgapAsc : LeavesGap (channels.mergeSort ascendingLe) targetMsat alloc := by
    intro k hk
    have hb := h.between hk
    have hfound := found_of_ascending hb.1 hb.2 (ascending_pairwise channels)
      (fun c hc => hu c (List.mem_mergeSort.1 hc)) (fun c hc => hcross c (List.mem_mergeSort.1 hc))
      (List.take_prefix k _)
    have := (findAllocation_eq_none_iff h0).1 hasc
    omega
  have hlen : 1 < alloc.length := by
    rcases alloc with _ | ⟨e, _ | ⟨e', al⟩⟩
    · have := h.total
      simp only [total_nil] at this
      omega
    · have hb := h.bounds e (by simp)
      have ht := h.total
      simp only [total_cons, total_nil] at ht
      have hmem : e.channel ∈ channels := h.channels.subset (by simp)
      exact absurd ⟨by omega, by omega⟩ (hcross _ hmem)
    · simp
  refine ⟨hgapAsc, hgapDesc, hlen, ?_⟩
  -- with two channels at most the choice is all that the descending order tries
  by_contra hfew
  have hsub := h.subperm_eligible
  have hperm := hsub.perm_of_length_le (by rw [List.length_map]; omega)
  have hsort : (eligible (channels.mergeSort descendingLe) targetMsat).Perm (eligible channels targetMsat) :=
    (List.mergeSort_perm channels descendingLe).filter _
  refine hgapDesc (eligible (channels.mergeSort descendingLe) targetMsat).length ?_
  rw [List.take_length]
  exact hperm.trans hsort.symm

end Choices

/-! ### Three channels with a gap -/

/-- The outer two channels can carry `4 + 19`; the middle one asks for `8`. -/
def gapChannels : List Channel := [⟨"1x1x1", 5, 4⟩, ⟨"2x1x1", 9, 8⟩, ⟨"3x1x1", 20, 19⟩]

def gapChoice : List ChannelContribution := [⟨⟨"1x1x1", 5, 4⟩, 4⟩, ⟨⟨"3x1x1", 20, 19⟩, 19⟩]

theorem gapChannels_ascending : gapChannels.mergeSort ascendingLe = gapChannels :=
  List.mergeSort_of_pairwise (by decide)

theorem gapChannels_descending : gapChannels.mergeSort descendingLe = gapChannels.reverse := by
  simp [gapChannels, List.mergeSort, List.MergeSort.Internal.splitInTwo, descendingLe]

theorem gapChannels_asc_none : findAllocationAscendingOrder gapChannels 23 = some none := by
  rw [findAllocationAscendingOrder, gapChannels_ascending]
  decide

theorem gapChannels_desc_none : findAllocationDescendingOrder gapChannels 23 = some none := by
  rw [findAllocationDescendingOrder, gapChannels_descending]
  decide

theorem gapChoice_choice : Choice gapChannels 23 gapChoice where
  channels := (by decide : List.Sublist _ _).subperm
  bounds := by decide
  total := by decide

theorem findAllocation_gap_three :
    LeavesGap (gapChannels.mergeSort ascendingLe) 23 gapChoice ∧
      LeavesGap (gapChannels.mergeSort descendingLe) 23 gapChoice ∧
      1 < gapChoice.length ∧ 2 < (eligible gapChannels 23).length :=
  findAllocation_gap (by unfold Channel.Passed; decide) (by decide) gapChannels_asc_none gapChannels_desc_none
    gapChoice_choice

/-- The caller reports insufficient funds for an amount that two of the three channels can carry. -/
theorem findAllocation_incomplete : ¬ ∀ (channels : List Channel) (targetMsat : ℕ),
    (∀ ch ∈ channels, ch.Passed) → 0 < targetMsat →
    findAllocationAscendingOrder channels targetMsat = some none →
    findAllocationDescendingOrder channels targetMsat = some none →
    ¬ ∃ alloc, Choice channels targetMsat alloc := fun h =>
  h gapChannels 23 (by unfold Channel.Passed; decide) (by decide) gapChannels_asc_none gapChannels_desc_none
    ⟨gapChoice, gapChoice_choice⟩

end Greenlight.Tramp
