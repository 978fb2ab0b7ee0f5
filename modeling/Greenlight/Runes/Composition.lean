import Greenlight.Runes.Printable

/-!
# Rule sets are disjunctions

A tree of rules generates one restriction with the alternatives of its leaves, if no `Add` in it is empty
(`generate_eq`), by induction over the tree.  So a context meets it exactly if it meets a leaf, and a carved rune is
satisfied exactly where the original is and a leaf of each of the trees is met (`carve_satisfies_iff`).
-/

namespace Greenlight.Runes

open Greenlight.Lib

/-- The rule sets that are no `Add`. -/
inductive DefRules.Leaf where
  | readOnly
  | pay
  deriving DecidableEq, Repr

/-- `method=pay`. -/
def payRestriction : Restriction := ⟨[⟨"method", .equal, "pay"⟩]⟩

def DefRules.Leaf.restriction : Leaf → Restriction
  | readOnly => readOnlyRestriction
  | pay => payRestriction

namespace DefRules

mutual

def leaves : DefRules → List Leaf
  | .readOnly => [.readOnly]
  | .pay => [.pay]
  | .add rules => leavesAll rules

def leavesAll : List DefRules → List Leaf
  | [] => []
  | rule :: rules => leaves rule ++ leavesAll rules

end

mutual

/-- No `Add` of the tree is empty. -/
def Filled : DefRules → Prop
  | .readOnly | .pay => True
  | .add rules => rules ≠ [] ∧ FilledAll rules

def FilledAll : List DefRules → Prop
  | [] => True
  | rule :: rules => Filled rule ∧ FilledAll rules

end

def alternatives (rule : DefRules) : List Alternative := rule.leaves.flatMap (·.restriction.alternatives)

theorem leaves_add (rules : List DefRules) : (DefRules.add rules).leaves = rules.flatMap leaves := by
  rw [leaves]
  induction rules with
  | nil => rw [leavesAll, List.flatMap_nil]
  | cons rule rules ih => rw [leavesAll, ih, List.flatMap_cons]

mutual

theorem leaves_ne_nil : ∀ rule : DefRules, rule.Filled → rule.leaves ≠ []
  | .readOnly, _ => by simp [leaves]
  | .pay, _ => by simp [leaves]
  | .add rules, h => by
    rw [Filled] at h
    rw [leaves]
    exact leavesAll_ne_nil rules h.1 h.2

theorem leavesAll_ne_nil : ∀ rules : List DefRules, rules ≠ [] → FilledAll rules → leavesAll rules ≠ []
  | [], hne, _ => absurd rfl hne
  | rule :: rules, _, h => by
    rw [FilledAll] at h
    rw [leavesAll]
    exact fun happend => leaves_ne_nil rule h.1 (List.append_eq_nil_iff.1 happend).1

end

theorem isWord_of_mem_leaf {leaf : Leaf} {a : Alternative} (h : a ∈ leaf.restriction.alternatives) : a.IsWord := by
  cases leaf with
  | readOnly => exact isWord_of_mem_readOnly h
  | pay =>
    obtain rfl := List.mem_singleton.1 h
    exact ⟨by decide, List.all_eq_true.1 (by decide), List.all_eq_true.1 (by decide)⟩

theorem alternatives_add (rules : List DefRules) :
    (DefRules.add rules).alternatives = rules.flatMap (·.alternatives) := by
  unfold alternatives
  rw [leaves_add, List.flatMap_assoc]

theorem isWord_of_mem_alternatives {rule : DefRules} {a : Alternative} (h : a ∈ rule.alternatives) : a.IsWord := by
  obtain ⟨leaf, -, ha⟩ := List.mem_flatMap.1 h
  exact isWord_of_mem_leaf ha

theorem alternatives_ne_nil {rule : DefRules} (h : rule.Filled) : rule.alternatives ≠ [] := by
  obtain ⟨leaf, hleaf⟩ := List.exists_mem_of_ne_nil _ (leaves_ne_nil rule h)
  intro hnil
  have hempty := (List.flatMap_eq_nil_iff.1 hnil) leaf hleaf
  cases leaf <;> cases hempty

end DefRules

/-- The context meets one of the alternatives. -/
def Context.Meets (lib : Runeauth) (ctx : Context) (r : Restriction) : Prop :=
  ∃ a ∈ r.alternatives, ctx.checkAlternative lib a = .ok ()

namespace RuneBuilder

variable {lib : Runeauth} {b : RuneBuilder lib}

/-- A restriction of words that is added stands behind those of the rune. -/
def AppendsRestrictions (b : RuneBuilder lib) : Prop :=
  ∀ rune r, r.alternatives ≠ [] → (∀ a ∈ r.alternatives, a.IsWord) →
    (b.addRestriction rune r).1 = .ok () ∧
      lib.restrictions (b.addRestriction rune r).2 = lib.restrictions rune ++ [r]

theorem generate_pay (halt : b.BuildsAlternatives) (hres : b.BuildsRestrictions) :
    b.generate .pay = .ok [payRestriction] := by
  have hword : (⟨"method", .equal, "pay"⟩ : Alternative) ∈ DefRules.Leaf.pay.restriction.alternatives :=
    List.mem_singleton_self _
  have hpay : b.alternative "method" .equal "pay" = .ok ⟨"method", .equal, "pay"⟩ :=
    halt ⟨"method", .equal, "pay"⟩ (DefRules.isWord_of_mem_leaf hword)
  have hnew : b.restrictionNew payRestriction.alternatives = .ok payRestriction := hres _ (by decide)
  rw [generate, hpay]
  dsimp only [unwrap, bind, Except.bind]
  rw [payRestriction] at hnew
  rw [hnew]
  rfl

mutual

/-- **One restriction, of the alternatives of the leaves.** -/
theorem generate_eq (halt : b.BuildsAlternatives) (hres : b.BuildsRestrictions) :
    ∀ rule : DefRules, rule.Filled → b.generate rule = .ok [⟨rule.alternatives⟩]
  | .readOnly, _ => by
    rw [generate_readOnly halt hres]
    simp [DefRules.alternatives, DefRules.leaves, DefRules.Leaf.restriction, readOnlyRestriction]
  | .pay, _ => by
    rw [generate_pay halt hres]
    simp [DefRules.alternatives, DefRules.leaves, DefRules.Leaf.restriction, payRestriction]
  | .add rules, h => by
    have hnew := hres _ (DefRules.alternatives_ne_nil h)
    rw [DefRules.Filled] at h
    rw [generate, generateAll_eq halt hres rules [] h.2, List.nil_append, ← DefRules.alternatives_add]
    dsimp only [bind, Except.bind]
    rw [hnew]
    rfl

theorem generateAll_eq (halt : b.BuildsAlternatives) (hres : b.BuildsRestrictions) :
    ∀ (rules : List DefRules) (acc : List Alternative), DefRules.FilledAll rules →
      b.generateAll rules acc = .ok (acc ++ rules.flatMap (·.alternatives))
  | [], acc, _ => by
    rw [generateAll, List.flatMap_nil, List.append_nil]
    rfl
  | rule :: rules, acc, h => by
    rw [DefRules.FilledAll] at h
    rw [generateAll, generate_eq halt hres rule h.1]
    dsimp only [bind, Except.bind]
    rw [generateAll_eq halt hres rules _ h.2, List.flatMap_cons, List.flatMap_cons, List.flatMap_nil,
      List.append_nil, List.append_assoc]

end

theorem restrictions_foldl (happend : b.AppendsRestrictions) {rs : List Restriction}
    (hne : ∀ r ∈ rs, r.alternatives ≠ []) (hword : ∀ r ∈ rs, ∀ a ∈ r.alternatives, a.IsWord) (origin : lib.Rune) :
    lib.restrictions (rs.foldl (fun rune r => (b.addRestriction rune r).2) origin) = lib.restrictions origin ++ rs := by
  induction rs generalizing origin with
  | nil => simp
  | cons r rs ih =>
    obtain ⟨-, hadd⟩ := happend origin r (hne r List.mem_cons_self) (hword r List.mem_cons_self)
    rw [List.foldl_cons, ih (fun r hr => hne r (List.mem_cons_of_mem _ hr))
      (fun r hr => hword r (List.mem_cons_of_mem _ hr)), hadd]
    simp

theorem foldlM_generate (halt : b.BuildsAlternatives) (hres : b.BuildsRestrictions) {append : List DefRules}
    (hfilled : ∀ rule ∈ append, rule.Filled) (acc : List Restriction) :
    append.foldlM (fun acc res => do return acc ++ (← b.generate res)) acc =
      .ok (acc ++ append.map fun rule => ⟨rule.alternatives⟩) := by
  induction append generalizing acc with
  | nil => simp [pure, Except.pure]
  | cons rule append ih =>
    have hrest := ih (fun r hr => hfilled r (List.mem_cons_of_mem _ hr)) (acc ++ [⟨rule.alternatives⟩])
    rw [List.append_assoc] at hrest
    rw [List.foldlM_cons, generate_eq halt hres rule (hfilled rule List.mem_cons_self)]
    exact bind_eq_ok.2 ⟨_, rfl, hrest⟩

end RuneBuilder

theorem Context.meets_alternatives_iff (lib : Runeauth) (ctx : Context) (rule : DefRules) :
    ctx.Meets lib ⟨rule.alternatives⟩ ↔ ∃ leaf ∈ rule.leaves, ctx.Meets lib leaf.restriction := by
  unfold Context.Meets DefRules.alternatives
  simp only [List.mem_flatMap]
  constructor
  · rintro ⟨a, ⟨leaf, hleaf, ha⟩, hok⟩
    exact ⟨leaf, hleaf, a, ha, hok⟩
  · rintro ⟨leaf, hleaf, a, ha, hok⟩
    exact ⟨a, ⟨leaf, hleaf, ha⟩, hok⟩

namespace RuneBuilder

variable {lib : Runeauth} {b : RuneBuilder lib}

/-- **A carved rune** has the restrictions of the original one, and behind them one for each tree. -/
theorem carve_eq (halt : b.BuildsAlternatives) (hres : b.BuildsRestrictions) (happend : b.AppendsRestrictions)
    {append : List DefRules} (hfilled : ∀ rule ∈ append, rule.Filled) (origin : lib.Rune) :
    ∃ rune, b.carve origin append = .ok (lib.toBase64 rune) ∧
      lib.restrictions rune = lib.restrictions origin ++ append.map fun rule => ⟨rule.alternatives⟩ := by
  have hfold := foldlM_generate halt hres hfilled []
  rw [List.nil_append] at hfold
  refine ⟨_, bind_eq_ok.2 ⟨_, hfold, rfl⟩, restrictions_foldl happend ?_ ?_ origin⟩
  · rintro _ hr
    obtain ⟨rule, hrule, rfl⟩ := List.mem_map.1 hr
    exact DefRules.alternatives_ne_nil (hfilled rule hrule)
  · rintro _ hr a ha
    obtain ⟨rule, -, rfl⟩ := List.mem_map.1 hr
    exact DefRules.isWord_of_mem_alternatives ha

end RuneBuilder

/-- **Rule sets compose as disjunctions.**  A tree without an empty `Add` generates the restriction of the
alternatives of its leaves, which a context meets exactly if it meets a leaf, and carving with such trees succeeds with
a rune that a context satisfies exactly if it satisfies the original one and meets a leaf of every tree. -/
theorem rules_compose {lib : Runeauth} {b : RuneBuilder lib} (halt : b.BuildsAlternatives)
    (hres : b.BuildsRestrictions) (happend : b.AppendsRestrictions) (hcodec : lib.Base64RoundTrip) :
    (∀ rule : DefRules, rule.Filled →
      b.generate rule = .ok [⟨rule.leaves.flatMap (·.restriction.alternatives)⟩] ∧
      ∀ ctx : Context, ctx.Meets lib ⟨rule.leaves.flatMap (·.restriction.alternatives)⟩ ↔
        ∃ leaf ∈ rule.leaves, ctx.Meets lib leaf.restriction) ∧
    ∀ (origin : lib.Rune) (append : List DefRules), (∀ rule ∈ append, rule.Filled) →
      ∃ carved rune, b.carve origin append = .ok carved ∧ lib.fromBase64 carved = .ok rune ∧
        ∀ ctx : Context, ctx.Satisfies lib rune ↔
          ctx.Satisfies lib origin ∧ ∀ rule ∈ append, ∃ leaf ∈ rule.leaves, ctx.Meets lib leaf.restriction := by
  refine ⟨fun rule hfilled => ⟨RuneBuilder.generate_eq halt hres rule hfilled,
    fun ctx => ctx.meets_alternatives_iff lib rule⟩, fun origin append hfilled => ?_⟩
  obtain ⟨rune, hcarve, hrestrictions⟩ := RuneBuilder.carve_eq halt hres happend hfilled origin
  refine ⟨_, rune, hcarve, hcodec rune, fun ctx => ?_⟩
  unfold Context.Satisfies
  rw [hrestrictions, List.forall_mem_append, List.forall_mem_map]
  refine and_congr_right fun _ => forall₂_congr fun rule _ => ?_
  exact ctx.meets_alternatives_iff lib rule

theorem RuneBuilder.appendsRestrictions_printable : RuneBuilder.printable.AppendsRestrictions :=
  fun _ _ hne hword => PrintableRune.add_of_printable ⟨hne, fun a ha => (hword a ha).printable⟩

/-- `method^Get|method^List|method=pay`. -/
def readOnlyOrPay : DefRules := .add [.readOnly, .add [.pay]]

/-- The rune `K:pubkey=1122`. -/
def boundRune : PrintableRune := ⟨"K", [⟨[⟨"pubkey", .equal, "1122"⟩]⟩], by decide, by decide⟩

theorem rules_compose_readOnlyOrPay :
    (RuneBuilder.printable.generate readOnlyOrPay =
        .ok [⟨[⟨"method", .beginsWith, "Get"⟩, ⟨"method", .beginsWith, "List"⟩, ⟨"method", .equal, "pay"⟩]⟩] ∧
      ∀ ctx : Context, ctx.Meets .printable ⟨readOnlyOrPay.leaves.flatMap (·.restriction.alternatives)⟩ ↔
        ∃ leaf ∈ readOnlyOrPay.leaves, ctx.Meets .printable leaf.restriction) ∧
    ∃ carved rune, RuneBuilder.printable.carve boundRune [.pay, readOnlyOrPay] = .ok carved ∧
      PrintableRune.ofText carved = .ok rune ∧
      ∀ ctx : Context, ctx.Satisfies .printable rune ↔ ctx.Satisfies .printable boundRune ∧
        ∀ rule ∈ [DefRules.pay, readOnlyOrPay], ∃ leaf ∈ rule.leaves, ctx.Meets .printable leaf.restriction := by
  have hfilled : readOnlyOrPay.Filled := by simp [readOnlyOrPay, DefRules.Filled, DefRules.FilledAll]
  obtain ⟨hgenerate, hcarve⟩ := rules_compose RuneBuilder.buildsAlternatives_printable
    RuneBuilder.buildsRestrictions_printable RuneBuilder.appendsRestrictions_printable
    Runeauth.base64RoundTrip_printable
  refine ⟨hgenerate readOnlyOrPay hfilled, hcarve boundRune [.pay, readOnlyOrPay] fun rule hrule => ?_⟩
  rcases List.mem_pair.1 hrule with rfl | rfl
  · simp [DefRules.Filled]
  · exact hfilled

end Greenlight.Runes
