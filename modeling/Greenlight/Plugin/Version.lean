import Greenlight.Lib.NumeralOrder
import Greenlight.Lib.Result
import Greenlight.Plugin.Awaitables
import Mathlib.Data.Prod.Lex
import Mathlib.Order.Fin.Basic

/-!
# Versions of the node

The plugin and the version manager compare versions as strings: the method of `lsp_invoice` depends on
`version > "v25.05gl1"`, `billboard` and `spendable_msat` ask for `version >= "v23.05gl1"`, and `latest` is the
greatest tag.  A release tag has two components of two digits, a patch level and a Greenlight release; the text agrees
with the numbers until there is a patch level, whose point comes before `gl`, or a number with more digits
(`overtakes_iff`).
-/

namespace Greenlight.Plugin

open Greenlight.Lib Awaitables

/-- The method of `lsp_invoice`. -/
def lspInvoiceMethod (version : String) : String :=
  if "v25.05gl1" < version then "lsps-lsps2-invoice" else "lsps-jitchannel"

/-- `latest`: the greatest tag; there is none in an empty list. -/
def latest (tags : List String) : Option String := tags.max?

/-- The error of a method that the version does not have. -/
def unsupported (version : String) : AwaitableError :=
  .service ("Not supported in this version of core-lightning: " ++ version ++ ", need at least v23.05gl1")

/-! ### Release tags -/

/-- A tag `vA.B`, `vA.B.C`, `vA.BglN` or `vA.B.CglN`. -/
structure ReleaseTag where
  major : Fin 100
  minor : Fin 100
  patch : Option ℕ
  gl : Option ℕ
  deriving DecidableEq, Repr

namespace ReleaseTag

def twoDigits (n : Fin 100) : List Char := [Nat.digitChar (n / 10), Nat.digitChar (n % 10)]

def release (t : ReleaseTag) : List Char := 'v' :: (twoDigits t.major ++ '.' :: twoDigits t.minor)

def patchText : Option ℕ → List Char
  | none => []
  | some c => '.' :: Nat.toDigits 10 c

def glText : Option ℕ → List Char
  | none => []
  | some n => 'g' :: 'l' :: Nat.toDigits 10 n

def text (t : ReleaseTag) : String := String.ofList (t.release ++ (patchText t.patch ++ glText t.gl))

/-- The numbers of a tag, compared component by component. -/
def key (t : ReleaseTag) : ℕ ×ₗ ℕ ×ₗ ℕ ×ₗ ℕ :=
  toLex (t.major.val, toLex (t.minor.val, toLex (t.patch.getD 0, t.gl.getD 0)))

example : (⟨25, 5, some 1, some 2⟩ : ReleaseTag).text = "v25.05.1gl2" := by decide

/-- The numeral of the smaller number comes after that of the greater one. -/
def Inverts (m n : ℕ) : Prop := m < n ∧ leadingDigits m n < m

/-- The first tag is older than the second one by its numbers, and greater as a text: they are of one release, and

* both have no patch level and Greenlight releases whose numerals are inverted,
* only the older one has none, and it has a Greenlight release,
* both have patch levels, of the same number and with Greenlight releases whose numerals are inverted, or of numbers
  whose numerals are inverted, or the numeral of the older one, with a Greenlight release behind it, begins the other
  numeral. -/
def Overtakes (x y : ReleaseTag) : Prop :=
  x.major = y.major ∧ x.minor = y.minor ∧
    match x.patch, y.patch with
    | none, none => ∃ m n, x.gl = some m ∧ y.gl = some n ∧ Inverts m n
    | none, some c => ∃ m, x.gl = some m ∧ (1 ≤ c ∨ m < y.gl.getD 0)
    | some _, none => False
    | some c, some d => (c = d ∧ ∃ m n, x.gl = some m ∧ y.gl = some n ∧ Inverts m n) ∨
        (c < d ∧ (leadingDigits c d < c ∨ leadingDigits c d = c ∧ x.gl.isSome))

/-! ### The order of the texts -/

theorem twoDigits_lt_iff (m n : Fin 100) : twoDigits m < twoDigits n ↔ m < n := by
  have hm := m.isLt
  have hn := n.isLt
  have htens := digitChar_lt_iff (i := m / 10) (j := n / 10) (by omega) (by omega)
  have htens' := digitChar_lt_iff (i := n / 10) (j := m / 10) (by omega) (by omega)
  have hones := digitChar_lt_iff (i := m % 10) (j := n % 10) (by omega) (by omega)
  have heq : Nat.digitChar (m / 10) = Nat.digitChar (n / 10) ↔ (m : ℕ) / 10 = n / 10 := by
    rw [le_antisymm_iff, ← not_lt, ← not_lt, htens, htens']
    omega
  unfold twoDigits
  rw [List.cons_lt_cons_iff, List.cons_lt_cons_iff, htens, hones, heq, Fin.lt_def]
  simp only [List.not_lt_nil, and_false, or_false]
  omega

theorem twoDigits_injective : Function.Injective twoDigits := fun m n h => by
  refine le_antisymm (not_lt.1 fun hlt => ?_) (not_lt.1 fun hlt => ?_)
  · exact absurd h ((twoDigits_lt_iff n m).2 hlt).ne'
  · exact absurd h ((twoDigits_lt_iff m n).2 hlt).ne

theorem twoDigits_append_lt_iff (m n : Fin 100) (s t : List Char) :
    twoDigits m ++ s < twoDigits n ++ t ↔ m < n ∨ m = n ∧ s < t := by
  have hlen : (twoDigits m).length = (twoDigits n).length := rfl
  rw [append_lt_append_iff hlen, twoDigits_lt_iff, twoDigits_injective.eq_iff]

theorem text_lt_iff (x y : ReleaseTag) : x.text < y.text ↔ x.major < y.major ∨ x.major = y.major ∧
    (x.minor < y.minor ∨ x.minor = y.minor ∧
      patchText x.patch ++ glText x.gl < patchText y.patch ++ glText y.gl) := by
  rw [String.lt_iff_toList_lt]
  unfold text release
  rw [String.toList_ofList, String.toList_ofList, List.cons_append, List.cons_append, List.cons_lt_cons_iff,
    List.append_assoc, List.append_assoc, twoDigits_append_lt_iff, List.cons_append, List.cons_append,
    List.cons_lt_cons_iff, twoDigits_append_lt_iff]
  simp only [lt_irrefl, false_or, true_and]

theorem key_lt_iff (x y : ReleaseTag) : x.key < y.key ↔ x.major < y.major ∨ x.major = y.major ∧
    (x.minor < y.minor ∨ x.minor = y.minor ∧
      (x.patch.getD 0 < y.patch.getD 0 ∨ x.patch.getD 0 = y.patch.getD 0 ∧ x.gl.getD 0 < y.gl.getD 0)) := by
  unfold key
  simp only [Prod.Lex.toLex_lt_toLex, Fin.lt_def, Fin.ext_iff]

theorem toDigits_lt_iff_inverts {m n : ℕ} (h : m < n) : Nat.toDigits 10 n < Nat.toDigits 10 m ↔ Inverts m n := by
  obtain ⟨rest, -, -, hiff⟩ := toDigits_append_lt_iff (numDigits_le h.le)
  have hcompare := hiff [] []
  rw [List.append_nil, List.append_nil, List.append_nil] at hcompare
  rw [hcompare]
  simp [Inverts, h]

theorem glText_lt_iff (g h : Option ℕ) : g.getD 0 < h.getD 0 ∧ glText h < glText g ↔
    ∃ m n, g = some m ∧ h = some n ∧ Inverts m n := by
  cases g with
  | none => simp [glText]
  | some m =>
    cases h with
    | none => simp
    | some n =>
      simp only [Option.getD_some, glText, List.cons_lt_cons_iff, lt_irrefl, false_or, true_and, Option.some.injEq]
      constructor
      · rintro ⟨hlt, htext⟩
        exact ⟨m, n, rfl, rfl, (toDigits_lt_iff_inverts hlt).1 htext⟩
      · rintro ⟨m, n, rfl, rfl, hinv⟩
        exact ⟨hinv.1, (toDigits_lt_iff_inverts hinv.1).2 hinv⟩

theorem patchText_lt_iff {c d : ℕ} (hcd : c < d) (g h : Option ℕ) :
    patchText (some d) ++ glText h < patchText (some c) ++ glText g ↔
      leadingDigits c d < c ∨ leadingDigits c d = c ∧ g.isSome := by
  obtain ⟨rest, hlen, hdigits, hiff⟩ := toDigits_append_lt_iff (numDigits_le hcd.le)
  simp only [patchText, List.cons_append, List.cons_lt_cons_iff, lt_irrefl, false_or, true_and]
  rw [hiff]
  refine or_congr_right (and_congr_right fun hlead => ?_)
  cases rest with
  | nil =>
    -- numerals of the same length are not the beginnings of each other
    have hsame : numDigits d - numDigits c = 0 := hlen.symm
    unfold leadingDigits at hlead
    rw [hsame, Nat.pow_zero, Nat.div_one] at hlead
    omega
  | cons digit rest =>
    rw [List.cons_append]
    cases g with
    | none => simp [glText]
    | some n =>
      have hdigit : digit < 'g' := by
        have hrange : digit.isDigit = (decide (48 ≤ digit.val) && decide (digit.val ≤ 57)) := rfl
        have hle := hdigits digit List.mem_cons_self
        rw [hrange, Bool.and_eq_true, decide_eq_true_eq, decide_eq_true_eq] at hle
        exact lt_of_le_of_lt (show digit ≤ '9' from hle.2) (by decide)
      simp [glText, List.cons_lt_cons_iff, hdigit]

/-- Tags of different releases are in the same order as texts and by their numbers. -/
theorem not_text_lt_of_key_lt {x y : ReleaseTag} (hrel : ¬ (x.major = y.major ∧ x.minor = y.minor))
    (hkey : x.key < y.key) : ¬ y.text < x.text := by
  intro htext
  rw [key_lt_iff] at hkey
  rw [text_lt_iff] at htext
  rcases hkey with hmajor | ⟨hmajor, hminor | ⟨hminor, -⟩⟩
  · rcases htext with h | ⟨h, -⟩
    · exact absurd h hmajor.not_gt
    · exact absurd h hmajor.ne'
  · rcases htext with h | ⟨-, h | ⟨h, -⟩⟩
    · exact absurd h hmajor.not_gt
    · exact absurd h hminor.not_gt
    · exact absurd h hminor.ne'
  · exact hrel ⟨hmajor, hminor⟩

/-- **Which tags the order of the texts gets wrong.** -/
theorem overtakes_iff (x y : ReleaseTag) : Overtakes x y ↔ x.key < y.key ∧ y.text < x.text := by
  by_cases hrel : x.major = y.major ∧ x.minor = y.minor
  · obtain ⟨hmajor, hminor⟩ := hrel
    rw [key_lt_iff, text_lt_iff]
    unfold Overtakes
    simp only [hmajor, hminor, lt_irrefl, false_or, true_and]
    cases hx : x.patch with
    | none =>
      cases hy : y.patch with
      | none =>
        simp only [Option.getD_none, lt_irrefl, false_or, true_and, patchText, List.nil_append]
        exact (glText_lt_iff _ _).symm
      | some d =>
        -- the point of the patch level comes before the Greenlight release
        cases hg : x.gl with
        | none => simp [patchText, glText]
        | some m =>
          have hpoint : '.' < 'g' := by decide
          simp only [Option.getD_none, Option.getD_some, patchText, glText, List.nil_append, List.cons_append,
            List.cons_lt_cons_iff, hpoint, true_or, and_true, Option.some.injEq, exists_eq_left']
          omega
    | some c =>
      cases hy : y.patch with
      | none =>
        have hpoint : ¬ 'g' < '.' := by decide
        have hne : 'g' ≠ '.' := by decide
        cases hh : y.gl with
        | none => simp
        | some n => simp [patchText, glText, List.cons_lt_cons_iff, hpoint, hne]
      | some d =>
        rcases lt_trichotomy c d with hcd | rfl | hcd
        · rw [patchText_lt_iff hcd]
          simp [hcd, hcd.ne]
        · have hcancel : patchText (some c) ++ glText y.gl < patchText (some c) ++ glText x.gl ↔
              glText y.gl < glText x.gl := by rw [append_lt_append_iff rfl]; simp
          rw [hcancel, ← glText_lt_iff]
          simp
        · simp [hcd.not_gt, hcd.ne']
  · exact iff_of_false (fun h => hrel ⟨h.1, h.2.1⟩) fun h => not_text_lt_of_key_lt hrel h.1 h.2

/-! ### The gates -/

def lspInvoiceGate : ReleaseTag := ⟨25, 5, none, some 1⟩

def peerchannelsGate : ReleaseTag := ⟨23, 5, none, some 1⟩

/-- `lsp_invoice` uses the new method for the versions after `v25.05gl1`. -/
def LspInvoiceAgrees (t : ReleaseTag) : Prop :=
  lspInvoiceMethod t.text = "lsps-lsps2-invoice" ↔ lspInvoiceGate.key < t.key

/-- `billboard` and `spendable_msat` refuse the versions before `v23.05gl1`, and no others. -/
def PeerchannelsAgree (t : ReleaseTag) : Prop :=
  ∀ (scid : String) (r : Replies), r.connect = .ok () →
    (billboard t.text scid r = .error (unsupported t.text) ↔ t.key < peerchannelsGate.key) ∧
      (spendableMsat t.text scid r = .error (unsupported t.text) ↔ t.key < peerchannelsGate.key)

/-- `latest` is a tag with the greatest numbers. -/
def LatestAgrees (tags : List ReleaseTag) : Prop :=
  ∀ tag, latest (tags.map text) = some tag → ∃ t ∈ tags, t.text = tag ∧ ∀ u ∈ tags, u.key ≤ t.key

theorem not_inverts_one (n : ℕ) : ¬ Inverts 1 n := by
  rintro ⟨hlt, hlead⟩
  have hone : numDigits 1 = 1 := by decide
  unfold leadingDigits at hlead
  rw [hone, Nat.lt_one_iff, Nat.div_eq_zero_iff] at hlead
  rcases hlead with hzero | hsmall
  · exact absurd hzero (Nat.pow_pos (by decide)).ne'
  · -- a numeral is not shorter than its number asks for
    rcases Nat.eq_zero_or_pos (numDigits n - 1) with h0 | hpos
    · rw [h0] at hsmall
      omega
    · have hle := (Nat.length_toDigits_le_iff (b := 10) (by decide) hpos).2 hsmall
      change numDigits n ≤ numDigits n - 1 at hle
      omega

theorem one_lt_toDigits_iff (n : ℕ) : Nat.toDigits 10 1 < Nat.toDigits 10 n ↔ 1 < n := by
  rcases lt_trichotomy n 1 with hn | rfl | hn
  · obtain rfl : n = 0 := by omega
    decide
  · simp
  · have hnot := mt (toDigits_lt_iff_inverts hn).1 (not_inverts_one n)
    have hne : Nat.toDigits 10 1 ≠ Nat.toDigits 10 n := fun h => hn.ne (toDigits_injective h)
    exact iff_of_true (lt_of_le_of_ne (not_lt.1 hnot) hne) hn

theorem toDigits_lt_one_iff (n : ℕ) : Nat.toDigits 10 n < Nat.toDigits 10 1 ↔ n < 1 := by
  rcases lt_trichotomy n 1 with hn | rfl | hn
  · obtain rfl : n = 0 := by omega
    decide
  · simp
  · exact iff_of_false ((one_lt_toDigits_iff n).2 hn).not_gt hn.not_gt

theorem glText_one_lt_iff (p g : Option ℕ) :
    patchText none ++ glText (some 1) < patchText p ++ glText g ↔ p = none ∧ 1 < g.getD 0 := by
  have hpoint : ¬ 'g' < '.' := by decide
  have hne : 'g' ≠ '.' := by decide
  cases p with
  | some c => simp [patchText, glText, List.cons_lt_cons_iff, hpoint, hne]
  | none =>
    cases g with
    | none => simp [patchText, glText]
    | some n =>
      simp only [patchText, glText, List.nil_append, List.cons_lt_cons_iff, lt_irrefl, false_or, true_and,
        Option.getD_some]
      exact one_lt_toDigits_iff n

theorem lt_glText_one_iff (p g : Option ℕ) :
    patchText p ++ glText g < patchText none ++ glText (some 1) ↔ p ≠ none ∨ g.getD 0 < 1 := by
  have hpoint : '.' < 'g' := by decide
  cases p with
  | some c => simp [patchText, glText, List.cons_lt_cons_iff, hpoint]
  | none =>
    cases g with
    | none => simp [patchText, glText]
    | some n =>
      simp only [patchText, glText, List.nil_append, List.cons_lt_cons_iff, lt_irrefl, false_or, true_and,
        Option.getD_some, ne_eq, not_true]
      exact toDigits_lt_one_iff n

/-- Two comparisons that agree on the release differ in what is left of tags of one release. -/
theorem lex_iff_lex {P Q R S X Y : Prop} (hQ : Q → ¬ P) (hS : S → ¬ R) :
    (P ∨ Q ∧ (R ∨ S ∧ X) ↔ P ∨ Q ∧ (R ∨ S ∧ Y)) ↔ (Q ∧ S → (X ↔ Y)) := by
  by_cases hq : Q
  · by_cases hs : S
    · simp [hq, hs, hQ hq, hS hs]
    · simp [hs]
  · simp [hq]

theorem lspInvoiceAgrees_iff (t : ReleaseTag) : LspInvoiceAgrees t ↔
    ¬ (t.major = 25 ∧ t.minor = 5 ∧ ∃ c, t.patch = some c ∧ (1 ≤ c ∨ 1 < t.gl.getD 0)) := by
  have hmethod : lspInvoiceMethod t.text = "lsps-lsps2-invoice" ↔ lspInvoiceGate.text < t.text := by
    have htext : lspInvoiceGate.text = "v25.05gl1" := by decide
    unfold lspInvoiceMethod
    rw [htext]
    split_ifs with h
    · exact iff_of_true rfl h
    · exact iff_of_false (by decide) h
  unfold LspInvoiceAgrees
  -- text and numbers agree on the release, and may differ in what is behind it
  rw [hmethod, text_lt_iff, key_lt_iff, lex_iff_lex (fun h => h.not_lt) (fun h => h.not_lt)]
  unfold lspInvoiceGate
  rw [glText_one_lt_iff]
  cases t.patch with
  | none => simp
  | some c =>
    simp only [reduceCtorEq, false_and, false_iff, Option.getD_none, Option.getD_some, Option.some.injEq,
      exists_eq_left', eq_comm (a := (25 : Fin 100)), eq_comm (a := (5 : Fin 100))]
    rw [← and_assoc, not_and]
    refine imp_congr_right fun _ => not_congr ?_
    omega

theorem findChannel_eq_unsupported_iff {version scid : String} {r : Replies} (h : r.connect = .ok ()) :
    findChannel version scid r = .error (unsupported version) ↔ version < "v23.05gl1" := by
  have hconnect : connect r = .ok () := by
    unfold connect
    rw [h]
    rfl
  unfold findChannel
  rw [hconnect]
  dsimp only [bind, Except.bind]
  split_ifs with hgate
  · refine iff_of_false ?_ hgate.not_gt
    cases r.listpeerchannels with
    | error e => simp [Except.mapError, unsupported]
    | ok channels =>
      dsimp only [Except.mapError]
      split
      · simp [throw, throwThe, MonadExceptOf.throw, unsupported]
      · simp [pure, Except.pure]
  · exact iff_of_true rfl (not_le.1 hgate)

theorem findChannel_bind_eq_unsupported_iff {α : Type} {version scid : String} {r : Replies}
    {f : PeerChannel → Except AwaitableError α} (h : r.connect = .ok ())
    (hf : ∀ c, f c ≠ .error (unsupported version)) :
    (findChannel version scid r >>= f) = .error (unsupported version) ↔ version < "v23.05gl1" := by
  rw [bind_eq_error, findChannel_eq_unsupported_iff h]
  exact or_iff_left fun ⟨c, _, hc⟩ => hf c hc

theorem billboard_eq_unsupported_iff {version scid : String} {r : Replies} (h : r.connect = .ok ()) :
    billboard version scid r = .error (unsupported version) ↔ version < "v23.05gl1" := by
  refine findChannel_bind_eq_unsupported_iff h fun c => ?_
  cases c.status <;> simp [throw, throwThe, MonadExceptOf.throw, unsupported, pure, Except.pure]

theorem spendableMsat_eq_unsupported_iff {version scid : String} {r : Replies} (h : r.connect = .ok ()) :
    spendableMsat version scid r = .error (unsupported version) ↔ version < "v23.05gl1" := by
  refine findChannel_bind_eq_unsupported_iff h fun c => ?_
  cases c.spendableMsat <;> simp [throw, throwThe, MonadExceptOf.throw, unsupported, pure, Except.pure]

def noReplies : Replies where
  connect := .ok ()
  getinfo := .error ⟨none, ""⟩
  listpeers := .error ⟨none, ""⟩
  connectPeer := .error ⟨none, ""⟩
  listpeerchannels := .error ⟨none, ""⟩
  getroute := .error ⟨none, ""⟩

theorem peerchannelsAgree_iff (t : ReleaseTag) : PeerchannelsAgree t ↔
    ¬ (t.major = 23 ∧ t.minor = 5 ∧ ∃ c, t.patch = some c ∧ (1 ≤ c ∨ 1 ≤ t.gl.getD 0)) := by
  have hgate : PeerchannelsAgree t ↔ (t.text < peerchannelsGate.text ↔ t.key < peerchannelsGate.key) := by
    have htext : peerchannelsGate.text = "v23.05gl1" := by decide
    unfold PeerchannelsAgree
    rw [htext]
    constructor
    · intro h
      exact (billboard_eq_unsupported_iff rfl).symm.trans (h "" noReplies rfl).1
    · intro h scid r hconnect
      exact ⟨(billboard_eq_unsupported_iff hconnect).trans h, (spendableMsat_eq_unsupported_iff hconnect).trans h⟩
  rw [hgate, text_lt_iff, key_lt_iff, lex_iff_lex (fun h => h.not_lt) (fun h => h.not_lt)]
  unfold peerchannelsGate
  rw [lt_glText_one_iff]
  cases t.patch with
  | none => simp
  | some c =>
    simp only [ne_eq, reduceCtorEq, not_false_eq_true, true_or, true_iff, Option.getD_none, Option.getD_some,
      Option.some.injEq, exists_eq_left']
    rw [← and_assoc, not_and]
    refine imp_congr_right fun _ => ?_
    omega

/-- The greatest text is one with the greatest numbers if it does not overtake one of these. -/
theorem latestAgrees_iff (tags : List ReleaseTag) : LatestAgrees tags ↔
    tags = [] ∨ ∃ y ∈ tags, (∀ u ∈ tags, u.key ≤ y.key) ∧ ∀ x ∈ tags, ¬ Overtakes x y := by
  have hmax : ∀ tag, latest (tags.map text) = some tag ↔
      tag ∈ tags.map text ∧ ∀ u ∈ tags, u.text ≤ tag := fun tag => by
    unfold latest
    rw [List.max?_eq_some_iff]
    simp
  constructor
  · intro h
    rcases tags.eq_nil_or_concat with rfl | ⟨front, last, htags⟩
    · exact Or.inl rfl
    · have hsome : (latest (tags.map text)).isSome := by
        unfold latest
        simp [htags]
      obtain ⟨tag, htag⟩ := Option.isSome_iff_exists.1 hsome
      obtain ⟨y, hy, rfl, hkeys⟩ := h tag htag
      -- the greatest text is overtaken by none
      refine Or.inr ⟨y, hy, hkeys, fun x hx hover => ?_⟩
      exact ((overtakes_iff x y).1 hover).2.not_ge (((hmax _).1 htag).2 x hx)
  · rintro (rfl | ⟨y, hy, hkeys, hover⟩) tag htag
    · cases htag
    · obtain ⟨hmem, hgreatest⟩ := (hmax tag).1 htag
      obtain ⟨m, hm, rfl⟩ := List.mem_map.1 hmem
      rcases lt_or_eq_of_le (hkeys m hm) with hlt | heq
      · -- an older tag with the greatest text has the text of the newest one
        have htext : m.text ≤ y.text := not_lt.1 fun h => hover m hm ((overtakes_iff m y).2 ⟨hlt, h⟩)
        exact ⟨y, hy, le_antisymm (hgreatest y hy) htext, hkeys⟩
      · exact ⟨m, hm, rfl, fun u hu => heq ▸ hkeys u hu⟩

end ReleaseTag

open ReleaseTag

/-- **Where text and numbers agree.**  The gates of the plugin go wrong only for tags of their own release with a patch
level, and `latest` only if each of the newest tags is overtaken by a tag of the list. -/
theorem version_gates_iff (t : ReleaseTag) (tags : List ReleaseTag) :
    (LspInvoiceAgrees t ↔
      ¬ (t.major = 25 ∧ t.minor = 5 ∧ ∃ c, t.patch = some c ∧ (1 ≤ c ∨ 1 < t.gl.getD 0))) ∧
    (PeerchannelsAgree t ↔
      ¬ (t.major = 23 ∧ t.minor = 5 ∧ ∃ c, t.patch = some c ∧ (1 ≤ c ∨ 1 ≤ t.gl.getD 0))) ∧
    (LatestAgrees tags ↔
      tags = [] ∨ ∃ y ∈ tags, (∀ u ∈ tags, u.key ≤ y.key) ∧ ∀ x ∈ tags, ¬ Overtakes x y) :=
  ⟨lspInvoiceAgrees_iff t, peerchannelsAgree_iff t, latestAgrees_iff tags⟩

/-- The patch level `v25.05.1` comes after `v25.05gl1`, and is not after it as a text. -/
theorem version_gates_patch : ¬ ∀ (t : ReleaseTag) (tags : List ReleaseTag),
    LspInvoiceAgrees t ∧ PeerchannelsAgree t ∧ LatestAgrees tags := by
  intro h
  have hagrees := (h ⟨25, 5, some 1, none⟩ []).1
  unfold LspInvoiceAgrees at hagrees
  have hmethod := hagrees.2 (by decide)
  exact absurd hmethod (by decide)

end Greenlight.Plugin
