import Greenlight.Lib.Decimal
import Greenlight.Lib.Result

/-!
# Sending on-chain

`onchain_send` of the SDK: the amount comes as a text, `10000sat`, `1000msat` or `all`.  The code separates digits
from other characters wherever they stand, takes no digits for zero, and multiplies by 1000 for every unit.  When
this is what the text means is `readAsMeant_iff`: not for amounts in `msat` other than zero, not for digits that do
not stand in front of their unit, and not for amounts that are too large.
-/

namespace Greenlight.Sdk

open Greenlight.Lib

/-! ### The call -/

/-- The errors of the SDK that the call can return. -/
inductive Error where
  | rpc (message : String)
  | argument (name value : String)
  deriving DecidableEq, Repr

/-- How the call ends without a response. -/
inductive Failure where
  | err (e : Error)
  | panic
  deriving DecidableEq, Repr

/-- `AmountOrAll` of `cln`, with the amount in `msat`. -/
inductive AmountOrAll where
  | amount (msat : UInt64)
  | all (all : Bool)
  deriving DecidableEq, Repr

inductive Feerate where
  | slow (slow : Bool)
  | normal (normal : Bool)
  | urgent (urgent : Bool)
  | perkb (perkb : UInt32)
  | perkw (perkw : UInt32)
  deriving DecidableEq, Repr

structure Outpoint where
  txid : Bytes
  outnum : UInt32
  deriving DecidableEq, Repr

structure WithdrawRequest where
  destination : String
  minconf : Option UInt32
  feerate : Option Feerate
  satoshi : Option AmountOrAll
  utxos : List Outpoint
  deriving DecidableEq, Repr

structure WithdrawResponse where
  tx : Bytes
  txid : Bytes
  psbt : String
  deriving DecidableEq, Repr

structure OnchainSendResponse where
  tx : Bytes
  txid : Bytes
  psbt : String
  deriving DecidableEq, Repr

def OnchainSendResponse.ofWithdraw (other : WithdrawResponse) : OnchainSendResponse :=
  { tx := other.tx, txid := other.txid, psbt := other.psbt }

/-- The scheduler, from which the client of the node is gotten, and the answers of the node; an error is its
text. -/
structure Node where
  getClnClient : Except String Unit
  withdraw : WithdrawRequest → Except String WithdrawResponse

/-- `num.parse::<u64>().unwrap()`, or zero where there are no digits. -/
def parseNum (num : String) : Except Failure UInt64 :=
  if num = "" then .ok 0
  else
    match parseU64 num with
    | none => .error .panic
    | some n => .ok n

def times1000 (build : Build) (n : UInt64) : Except Failure UInt64 :=
  match mulU64 build n 1000 with
  | none => .error .panic
  | some msat => .ok msat

/-- The match on number and suffix. -/
def satoshiOf (build : Build) (amountOrAll : String) (num : UInt64) (suffix : String) : Except Failure AmountOrAll :=
  if suffix = "" ∨ suffix = "sat" then (times1000 build num).map .amount
  else if suffix = "msat" then (times1000 build num).map .amount
  else if num = 0 ∧ suffix = "all" then .ok (.all true)
  else .error (.err (.argument "amount_or_all" amountOrAll))

/-- What the user intends to do. -/
def decodeAmount (build : Build) (amountOrAll : String) : Except Failure AmountOrAll :=
  match parseNum (partitionDigits amountOrAll).1 with
  | .error e => .error e
  | .ok num => satoshiOf build amountOrAll num (partitionDigits amountOrAll).2

def withdrawRequest (destination : String) (satoshi : AmountOrAll) : WithdrawRequest :=
  { destination, minconf := none, feerate := none, satoshi := some satoshi, utxos := [] }

/-- `onchain_send`, with the requests that are sent. -/
def onchainSend (build : Build) (node : Node) (destination amountOrAll : String) :
    List WithdrawRequest × Except Failure OnchainSendResponse :=
  match node.getClnClient with
  | .error e => ([], .error (.err (.rpc e)))
  | .ok _ =>
    match decodeAmount build amountOrAll with
    | .error e => ([], .error e)
    | .ok satoshi =>
      ([withdrawRequest destination satoshi],
        match node.withdraw (withdrawRequest destination satoshi) with
        | .error e => .error (.err (.rpc e))
        | .ok r => .ok (.ofWithdraw r))

/-! ### What a text means -/

/-- The amount that a text stands for: a number of `msat`, a number of `sat` with or without its unit, or all. -/
inductive Means : String → AmountOrAll → Prop
  | msat {s : String} {n : ℕ} {amt : UInt64} : Quantity s n "msat" → n = amt.toNat → Means s (.amount amt)
  | sat {s : String} {n : ℕ} {amt : UInt64} : Quantity s n "sat" → 1000 * n = amt.toNat → Means s (.amount amt)
  | bare {s : String} {n : ℕ} {amt : UInt64} : Quantity s n "" → 1000 * n = amt.toNat → Means s (.amount amt)
  | all : Means "all" (.all true)

/-- The call requests what the text means, and returns an error for a text without a meaning, before anything is
requested. -/
structure ReadAsMeant (build : Build) (amountOrAll : String) : Prop where
  requests : ∀ satoshi, Means amountOrAll satoshi → ∀ node destination, node.getClnClient = .ok () →
    (onchainSend build node destination amountOrAll).1 = [withdrawRequest destination satoshi]
  rejects : (¬ ∃ satoshi, Means amountOrAll satoshi) → ∀ node destination, node.getClnClient = .ok () →
    onchainSend build node destination amountOrAll =
      ([], .error (.err (.argument "amount_or_all" amountOrAll)))

/-- The texts that are read as they are meant.  An amount in `sat` fits a word of `msat`, and one in `msat` is zero;
of the texts without a meaning, the digits fit a word, and the other characters are no unit, or they are `all` and
the digits are not zero. -/
inductive Readable (amountOrAll : String) : Prop
  | sat {n : ℕ} {unit : String} : Quantity amountOrAll n unit → unit = "" ∨ unit = "sat" → 1000 * n < UInt64.size →
      Readable amountOrAll
  | msat : Quantity amountOrAll 0 "msat" → Readable amountOrAll
  | all : amountOrAll = "all" → Readable amountOrAll
  | digitsAll : (partitionDigits amountOrAll).2 = "all" → digitsValue amountOrAll ≠ 0 →
      digitsValue amountOrAll < UInt64.size → Readable amountOrAll
  | other : (partitionDigits amountOrAll).2 ∉ ["", "sat", "msat", "all"] →
      digitsValue amountOrAll < UInt64.size → Readable amountOrAll

/-! ### The decoder -/

section Decode

variable {build : Build} {x : String}

theorem parseNum_partitionDigits (x : String) : parseNum (partitionDigits x).1 =
    if digitsValue x < UInt64.size then .ok (UInt64.ofNat (digitsValue x)) else .error .panic := by
  unfold parseNum
  split
  · rename_i hempty
    have hzero : digitsValue x = 0 := by
      rw [digitsValue, hempty]
      rfl
    rw [hzero]
    rfl
  · rename_i hne
    rw [parseU64_partitionDigits]
    by_cases hlt : digitsValue x < UInt64.size
    · rw [if_pos ⟨hne, hlt⟩, if_pos hlt]
    · rw [if_neg (fun h => hlt h.2), if_neg hlt]

theorem decodeAmount_of_not_lt (h : ¬ digitsValue x < UInt64.size) : decodeAmount build x = .error .panic := by
  simp only [decodeAmount, parseNum_partitionDigits, if_neg h]

theorem decodeAmount_of_lt (h : digitsValue x < UInt64.size) :
    decodeAmount build x = satoshiOf build x (UInt64.ofNat (digitsValue x)) (partitionDigits x).2 := by
  simp only [decodeAmount, parseNum_partitionDigits, if_pos h]

theorem satoshiOf_unit {num : UInt64} {suffix : String} (h : suffix = "" ∨ suffix = "sat" ∨ suffix = "msat") :
    satoshiOf build x num suffix = (times1000 build num).map .amount := by
  unfold satoshiOf
  split
  · rfl
  · rename_i hne
    rw [not_or] at hne
    rw [if_pos ((h.resolve_left hne.1).resolve_left hne.2)]

theorem satoshiOf_no_unit {num : UInt64} {suffix : String} (h : suffix ∉ ["", "sat", "msat"]) :
    satoshiOf build x num suffix =
      if num = 0 ∧ suffix = "all" then .ok (.all true) else .error (.err (.argument "amount_or_all" x)) := by
  simp only [List.mem_cons, List.not_mem_nil, or_false, not_or] at h
  rw [satoshiOf, if_neg (not_or.2 ⟨h.1, h.2.1⟩), if_neg h.2.2]

theorem ofNat_eq_zero_iff {n : ℕ} (h : n < UInt64.size) : UInt64.ofNat n = 0 ↔ n = 0 := by
  have hn : (UInt64.ofNat n).toNat = n := UInt64.toNat_ofNat_of_lt h
  rw [← UInt64.toNat_inj, hn]
  rfl

theorem times1000_of_lt {n : ℕ} (h : 1000 * n < UInt64.size) :
    times1000 build (UInt64.ofNat n) = .ok (UInt64.ofNat (1000 * n)) := by
  have hn : (UInt64.ofNat n).toNat = n := UInt64.toNat_ofNat_of_lt (by omega)
  have hmul : mulU64 build (UInt64.ofNat n) 1000 = some (UInt64.ofNat n * 1000) := by
    refine mulU64_of_lt build ?_
    rw [hn, Nat.mul_comm]
    exact h
  have hprod : UInt64.ofNat (1000 * n) = UInt64.ofNat n * 1000 := by
    rw [UInt64.ofNat_mul, UInt64.mul_comm]
    rfl
  simp only [times1000, hmul, hprod]

/-- A thousand times a number is the number itself only for zero, as 999 and the size of a word are coprime. -/
theorem eq_zero_of_mul_mod {a : ℕ} (h : a * 1000 % UInt64.size = a) (hlt : a < UInt64.size) : a = 0 := by
  have hdiv := Nat.div_add_mod (a * 1000) UInt64.size
  rw [h] at hdiv
  have hsplit : a * 999 + a = UInt64.size * (a * 1000 / UInt64.size) + a := (Nat.mul_succ a 999).symm.trans hdiv.symm
  have hdvd : UInt64.size ∣ a * 999 := ⟨_, Nat.add_right_cancel hsplit⟩
  have hcoprime : Nat.Coprime UInt64.size 999 := by decide +kernel
  exact Nat.eq_zero_of_dvd_of_lt (hcoprime.dvd_of_dvd_mul_right hdvd) hlt

theorem eq_zero_of_times1000 {n : UInt64} (h : times1000 build n = .ok n) : n = 0 := by
  unfold times1000 at h
  split at h
  · cases h
  · rename_i msat hmul
    obtain rfl := Except.ok.inj h
    have hprod := congrArg UInt64.toNat (mulU64_eq_some hmul)
    rw [UInt64.toNat_mul] at hprod
    exact UInt64.toNat.inj (eq_zero_of_mul_mod hprod.symm msat.toNat_lt)

theorem Means.inv {satoshi : AmountOrAll} (h : Means x satoshi) :
    ((partitionDigits x).2 = "msat" ∧ Quantity x (digitsValue x) "msat" ∧
      satoshi = .amount (UInt64.ofNat (digitsValue x)) ∧ digitsValue x < UInt64.size) ∨
    (∃ unit, (unit = "" ∨ unit = "sat") ∧ (partitionDigits x).2 = unit ∧ Quantity x (digitsValue x) unit ∧
      satoshi = .amount (UInt64.ofNat (1000 * digitsValue x)) ∧ 1000 * digitsValue x < UInt64.size) ∨
    x = "all" ∧ satoshi = .all true := by
  have hback : ∀ {n : ℕ} {amt : UInt64}, n = amt.toNat → amt = UInt64.ofNat n ∧ n < UInt64.size := by
    rintro _ amt rfl
    exact ⟨UInt64.ofNat_toNat.symm, amt.toNat_lt⟩
  cases h with
  | msat hx hamt =>
    have hdigit : NoDigit "msat" := by decide
    have hn := hx.digitsValue_eq hdigit
    subst hn
    obtain ⟨rfl, hlt⟩ := hback hamt
    exact Or.inl ⟨hx.unit_eq hdigit, hx, rfl, hlt⟩
  | sat hx hamt =>
    have hdigit : NoDigit "sat" := by decide
    have hn := hx.digitsValue_eq hdigit
    subst hn
    obtain ⟨rfl, hlt⟩ := hback hamt
    exact Or.inr (Or.inl ⟨_, Or.inr rfl, hx.unit_eq hdigit, hx, rfl, hlt⟩)
  | bare hx hamt =>
    have hdigit : NoDigit "" := by decide
    have hn := hx.digitsValue_eq hdigit
    subst hn
    obtain ⟨rfl, hlt⟩ := hback hamt
    exact Or.inr (Or.inl ⟨_, Or.inl rfl, hx.unit_eq hdigit, hx, rfl, hlt⟩)
  | all => exact Or.inr (Or.inr ⟨rfl, rfl⟩)

theorem means_of_quantity {n : ℕ} {unit : String} (hx : Quantity x n unit) (hunit : unit = "" ∨ unit = "sat")
    (hfits : 1000 * n < UInt64.size) : Means x (.amount (UInt64.ofNat (1000 * n))) := by
  have hamt : 1000 * n = (UInt64.ofNat (1000 * n)).toNat := (UInt64.toNat_ofNat_of_lt hfits).symm
  rcases hunit with rfl | rfl
  · exact .bare hx hamt
  · exact .sat hx hamt

theorem partitionDigits_all : (partitionDigits "all").2 = "all" ∧ digitsValue "all" = 0 := by
  decide +kernel

section

variable {satoshi : AmountOrAll}

/-- What a text means is decided by its characters that are no digits. -/
theorem Means.of_msat (h : Means x satoshi) (hsuffix : (partitionDigits x).2 = "msat") :
    Quantity x (digitsValue x) "msat" ∧ satoshi = .amount (UInt64.ofNat (digitsValue x)) := by
  rcases h.inv with ⟨-, hx, hsat, -⟩ | ⟨unit, hunit, hsat, -⟩ | ⟨rfl, -⟩
  · exact ⟨hx, hsat⟩
  · rw [← hsat, hsuffix] at hunit
    exact absurd hunit (by decide)
  · exact absurd (partitionDigits_all.1.symm.trans hsuffix) (by decide)

theorem Means.of_sat (h : Means x satoshi) (hsuffix : (partitionDigits x).2 = "" ∨ (partitionDigits x).2 = "sat") :
    Quantity x (digitsValue x) (partitionDigits x).2 ∧
      satoshi = .amount (UInt64.ofNat (1000 * digitsValue x)) ∧ 1000 * digitsValue x < UInt64.size := by
  rcases h.inv with ⟨hmsat, -⟩ | ⟨_, -, rfl, h⟩ | ⟨rfl, -⟩
  · rw [hmsat] at hsuffix
    exact absurd hsuffix (by decide)
  · exact h
  · rw [partitionDigits_all.1] at hsuffix
    exact absurd hsuffix (by decide)

theorem Means.of_all (h : Means x satoshi) (hsuffix : (partitionDigits x).2 = "all") :
    x = "all" ∧ satoshi = .all true := by
  rcases h.inv with ⟨hmsat, -⟩ | ⟨unit, hunit, hsat, -⟩ | h
  · exact absurd (hsuffix.symm.trans hmsat) (by decide)
  · rw [← hsat, hsuffix] at hunit
    exact absurd hunit (by decide)
  · exact h

theorem Means.suffix_mem (h : Means x satoshi) : (partitionDigits x).2 ∈ ["", "sat", "msat", "all"] := by
  rcases h.inv with ⟨hmsat, -⟩ | ⟨unit, hunit, hsat, -⟩ | ⟨rfl, -⟩
  · rw [hmsat]
    decide
  · rw [hsat]
    rcases hunit with rfl | rfl <;> decide
  · rw [partitionDigits_all.1]
    decide

end

/-- The decoder returns the meaning of a text, and the error of the argument for a text without a meaning. -/
structure DecodesAsMeant (build : Build) (x : String) : Prop where
  means : ∀ satoshi, Means x satoshi → decodeAmount build x = .ok satoshi
  rejects : (¬ ∃ satoshi, Means x satoshi) → decodeAmount build x = .error (.err (.argument "amount_or_all" x))

theorem DecodesAsMeant.of_means {satoshi : AmountOrAll} (h : Means x satoshi)
    (hdecode : decodeAmount build x = .ok satoshi) (hunique : ∀ satoshi', Means x satoshi' → satoshi' = satoshi) :
    DecodesAsMeant build x where
  means satoshi' h' := hunique satoshi' h' ▸ hdecode
  rejects hno := absurd ⟨satoshi, h⟩ hno

theorem DecodesAsMeant.of_no_means (h : ∀ satoshi, ¬ Means x satoshi)
    (hdecode : decodeAmount build x = .error (.err (.argument "amount_or_all" x))) : DecodesAsMeant build x where
  means satoshi h' := absurd h' (h satoshi)
  rejects _ := hdecode

theorem decodesAsMeant_of_readable (h : Readable x) : DecodesAsMeant build x := by
  cases h with
  | @sat n unit hx hunit hfits =>
    have hdigit : NoDigit unit := by rcases hunit with rfl | rfl <;> decide
    have hn := hx.digitsValue_eq hdigit
    subst hn
    have hsuffix := hx.unit_eq hdigit
    have hdecode : decodeAmount build x = .ok (.amount (UInt64.ofNat (1000 * digitsValue x))) := by
      rw [decodeAmount_of_lt (by omega), satoshiOf_unit (hsuffix ▸ hunit.imp_right Or.inl), times1000_of_lt hfits]
      rfl
    exact .of_means (means_of_quantity hx hunit hfits) hdecode fun satoshi' h' => (h'.of_sat (hsuffix ▸ hunit)).2.1
  | msat hx =>
    have hdigit : NoDigit "msat" := by decide
    have hn := hx.digitsValue_eq hdigit
    have hsuffix := hx.unit_eq hdigit
    have hdecode : decodeAmount build x = .ok (.amount 0) := by
      rw [decodeAmount_of_lt (by rw [hn]; decide), satoshiOf_unit (Or.inr (Or.inr hsuffix)), hn]
      cases build <;> decide
    -- `msat` is scaled too, which only zero survives
    refine .of_means (.msat hx rfl) hdecode fun satoshi' h' => ?_
    rw [(h'.of_msat hsuffix).2, hn]
    rfl
  | all hx =>
    subst hx
    have hdecode : decodeAmount build "all" = .ok (.all true) := by
      rw [decodeAmount_of_lt (by rw [partitionDigits_all.2]; decide), partitionDigits_all.1, partitionDigits_all.2]
      rfl
    exact .of_means .all hdecode fun satoshi' h' => (h'.of_all partitionDigits_all.1).2
  | digitsAll hsuffix hne hlt =>
    have hdecode : decodeAmount build x = .error (.err (.argument "amount_or_all" x)) := by
      rw [decodeAmount_of_lt hlt, satoshiOf_no_unit (by rw [hsuffix]; decide), if_neg]
      rw [ofNat_eq_zero_iff hlt]
      exact fun h => hne h.1
    refine .of_no_means (fun satoshi' h' => hne ?_) hdecode
    rw [(h'.of_all hsuffix).1]
    exact partitionDigits_all.2
  | other hother hlt =>
    have hsuffix := hother
    simp only [List.mem_cons, List.not_mem_nil, or_false, not_or] at hsuffix
    have hdecode : decodeAmount build x = .error (.err (.argument "amount_or_all" x)) := by
      rw [decodeAmount_of_lt hlt, satoshiOf_no_unit (by simp [hsuffix]), if_neg fun h => hsuffix.2.2.2 h.2]
    exact .of_no_means (fun satoshi' h' => hother h'.suffix_mem) hdecode

theorem DecodesAsMeant.exists_means (h : DecodesAsMeant build x)
    (hne : decodeAmount build x ≠ .error (.err (.argument "amount_or_all" x))) : ∃ satoshi, Means x satoshi :=
  by_contra fun hno => hne (h.rejects hno)

/-- A number with a unit is multiplied by 1000, which is right for `sat` and for zero. -/
theorem readable_of_unit (h : DecodesAsMeant build x) (hlt : digitsValue x < UInt64.size)
    (hunit : (partitionDigits x).2 = "" ∨ (partitionDigits x).2 = "sat" ∨ (partitionDigits x).2 = "msat") :
    Readable x := by
  have hdecode : decodeAmount build x = (times1000 build (UInt64.ofNat (digitsValue x))).map .amount := by
    rw [decodeAmount_of_lt hlt, satoshiOf_unit hunit]
  obtain ⟨satoshi, hs⟩ := h.exists_means (by
    rw [hdecode, times1000]
    cases mulU64 build (UInt64.ofNat (digitsValue x)) 1000 <;> exact nofun)
  -- `sat` and no unit are what the scaling is for, `msat` is scaled as well
  rcases or_assoc.2 hunit with hsat | hmsat
  · obtain ⟨hx, -, hfits⟩ := hs.of_sat hsat
    exact .sat hx hsat hfits
  · obtain ⟨hx, rfl⟩ := hs.of_msat hmsat
    have hok := h.means _ hs
    rw [hdecode] at hok
    have htimes : times1000 build (UInt64.ofNat (digitsValue x)) = .ok (UInt64.ofNat (digitsValue x)) := by
      cases htimes : times1000 build (UInt64.ofNat (digitsValue x)) with
      | error e =>
        rw [htimes] at hok
        cases hok
      | ok msat =>
        rw [htimes] at hok
        rw [AmountOrAll.amount.inj (Except.ok.inj hok)]
    rw [(ofNat_eq_zero_iff hlt).1 (eq_zero_of_times1000 htimes)] at hx
    exact .msat hx

/-- Everything is sent for `all` with zeros in it, which is right for `all`. -/
theorem readable_of_all (h : DecodesAsMeant build x) (hlt : digitsValue x < UInt64.size)
    (hall : (partitionDigits x).2 = "all") : Readable x := by
  by_cases hzero : digitsValue x = 0
  · have hdecode : decodeAmount build x = .ok (.all true) := by
      rw [decodeAmount_of_lt hlt, satoshiOf_no_unit (by rw [hall]; decide),
        if_pos ⟨(ofNat_eq_zero_iff hlt).2 hzero, hall⟩]
    obtain ⟨satoshi, hs⟩ := h.exists_means (by rw [hdecode]; exact nofun)
    exact .all (hs.of_all hall).1
  · exact .digitsAll hall hzero hlt

theorem readable_of_decodesAsMeant (h : DecodesAsMeant build x) : Readable x := by
  by_cases hlt : digitsValue x < UInt64.size
  · by_cases hsuffix : (partitionDigits x).2 ∈ ["", "sat", "msat", "all"]
    · simp only [List.mem_cons, List.not_mem_nil, or_false] at hsuffix
      rcases hsuffix with hbare | hsat | hmsat | hall
      · exact readable_of_unit h hlt (Or.inl hbare)
      · exact readable_of_unit h hlt (Or.inr (Or.inl hsat))
      · exact readable_of_unit h hlt (Or.inr (Or.inr hmsat))
      · exact readable_of_all h hlt hall
    · exact .other hsuffix hlt
  · -- the digits are expected to fit, and a panic is never right
    have hpanic : decodeAmount build x = .error .panic := decodeAmount_of_not_lt hlt
    obtain ⟨satoshi, hs⟩ := h.exists_means (by rw [hpanic]; exact nofun)
    cases hpanic.symm.trans (h.means satoshi hs)

end Decode

/-! ### The requests -/

theorem onchainSend_of_ok {build : Build} {node : Node} {destination x : String} {satoshi : AmountOrAll}
    (hnode : node.getClnClient = .ok ()) (h : decodeAmount build x = .ok satoshi) :
    (onchainSend build node destination x).1 = [withdrawRequest destination satoshi] := by
  simp only [onchainSend, hnode, h]

theorem onchainSend_of_error {build : Build} {node : Node} {destination x : String} {e : Failure}
    (hnode : node.getClnClient = .ok ()) (h : decodeAmount build x = .error e) :
    onchainSend build node destination x = ([], .error e) := by
  simp only [onchainSend, hnode, h]

def brokeNode : Node := ⟨.ok (), fun _ => .error "not enough funds"⟩

theorem readAsMeant_iff_decodesAsMeant {build : Build} {x : String} :
    ReadAsMeant build x ↔ DecodesAsMeant build x := by
  constructor
  · intro h
    refine ⟨fun satoshi hs => ?_, fun hno => ?_⟩
    -- a node that answers with an error still shows the request it was sent
    · have hreq := h.requests satoshi hs brokeNode "" rfl
      cases hdecode : decodeAmount build x with
      | error e =>
        rw [onchainSend_of_error rfl hdecode] at hreq
        cases hreq
      | ok satoshi' =>
        rw [onchainSend_of_ok rfl hdecode] at hreq
        simp only [withdrawRequest, List.cons.injEq, WithdrawRequest.mk.injEq, Option.some.injEq, true_and,
          and_true] at hreq
        rw [hreq]
    · have hreq := h.rejects hno brokeNode "" rfl
      cases hdecode : decodeAmount build x with
      | error e =>
        rw [onchainSend_of_error rfl hdecode] at hreq
        rw [Except.error.inj (Prod.mk.inj hreq).2]
      | ok satoshi' =>
        have hsent : (onchainSend build brokeNode "" x).1 = _ := onchainSend_of_ok rfl hdecode
        rw [hreq] at hsent
        cases hsent
  · intro h
    refine ⟨fun satoshi hs node destination hnode => ?_, fun hno node destination hnode => ?_⟩
    · exact onchainSend_of_ok hnode (h.means satoshi hs)
    · exact onchainSend_of_error hnode (h.rejects hno)

/-- **When a text is read as it is meant**, in a debug and in a release build. -/
theorem readAsMeant_iff (build : Build) (amountOrAll : String) :
    ReadAsMeant build amountOrAll ↔ Readable amountOrAll := by
  rw [readAsMeant_iff_decodesAsMeant]
  exact ⟨readable_of_decodesAsMeant, decodesAsMeant_of_readable⟩

/-- A thousand `msat` are sent as a million; an amount that does not fit wraps, a number that does not fit is a
panic, and zeros within `all` are ignored. -/
theorem onchainSend_misread :
    (onchainSend .release brokeNode "bc1" "1000msat").1 = [withdrawRequest "bc1" (.amount 1000000)] ∧
    (onchainSend .release brokeNode "bc1" "18446744073709552sat").1 = [withdrawRequest "bc1" (.amount 384)] ∧
    onchainSend .release brokeNode "bc1" "18446744073709551616" = ([], .error .panic) ∧
    (onchainSend .release brokeNode "bc1" "a00ll").1 = [withdrawRequest "bc1" (.all true)] ∧
    ¬ ∀ build amountOrAll, ReadAsMeant build amountOrAll := by
  have hmillion : (onchainSend .release brokeNode "bc1" "1000msat").1 =
      [withdrawRequest "bc1" (.amount 1000000)] := by
    decide +kernel
  refine ⟨hmillion, by decide +kernel, by decide +kernel, by decide +kernel, fun h => ?_⟩
  have hnumeral : Numeral "1000".toList 1000 := ⟨by decide, List.all_eq_true.1 (by decide), by decide⟩
  have hmeans : Means "1000msat" (.amount 1000) := .msat ⟨_, hnumeral, rfl⟩ rfl
  have hthousand := (h .release "1000msat").requests _ hmeans brokeNode "bc1" rfl
  exact absurd (hmillion.symm.trans hthousand) (by decide)

end Greenlight.Sdk
