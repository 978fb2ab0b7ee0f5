import Greenlight.Lib.Result
import Greenlight.Lib.Text

/-!
# LNURL

The replies of LNURL servers and the parsers of `lnurl/utils.rs` and `pay/mod.rs`.  An identifier comes from a user:
a URL in bech32 or a lightning address.  What the code takes from libraries (bech32, URLs, JSON, invoices and hashes)
is collected in `LnurlLib`.
-/

namespace Greenlight.Lnurl

open Greenlight.Lib

/-- How a function ends without a result: with an `Err` or with a panic. -/
inductive Failure where
  | err (message : String)
  | panic
  deriving DecidableEq, Repr

/-- `Bolt11InvoiceDescriptionRef`: the description as text, or the hash of one in hex. -/
inductive DescriptionRef where
  | direct (description : String)
  | hash (hex : String)
  deriving DecidableEq, Repr

/-- The functions of the libraries; the error of a parser is its text. -/
structure LnurlLib where
  Url : Type
  Invoice : Type
  /-- The data of `bech32::decode`. -/
  bech32Decode : String → Except String (List (Fin 32))
  fromBase32 : List (Fin 32) → Except String Bytes
  /-- The text of the error of `String::from_utf8`. -/
  utf8Error : Bytes → String
  urlParse : String → Except String Url
  host : Url → Option String
  /-- `query_pairs_mut().append_pair`. -/
  appendPair : Url → String → String → Url
  urlToString : Url → String
  /-- `query_pairs`, with their escapes resolved. -/
  queryPairs : Url → List (String × String)
  /-- `serde_json::from_str` at `Vec<Vec<String>>`. -/
  metadataFromStr : String → Except String (List (List String))
  invoiceFromStr : String → Except String Invoice
  invoiceToString : Invoice → String
  amountMilliSatoshis : Invoice → Option UInt64
  description : Invoice → DescriptionRef
  sha256Digest : String → String

structure PayRequestResponse where
  callback : String
  maxSendable : UInt64
  minSendable : UInt64
  tag : String
  metadata : String
  deriving DecidableEq, Repr

structure PayRequestCallbackResponse where
  pr : String
  routes : List String
  deriving DecidableEq, Repr

structure WithdrawRequestResponse where
  tag : String
  callback : String
  k1 : String
  defaultDescription : String
  minWithdrawable : UInt64
  maxWithdrawable : UInt64
  deriving DecidableEq, Repr

structure OkResponse where
  status : String
  deriving DecidableEq, Repr

/-- `LnUrlHttpClient`: what the servers answer to the request of a URL. -/
structure HttpClient where
  getPayRequestResponse : String → Except String PayRequestResponse
  getPayRequestCallbackResponse : String → Except String PayRequestCallbackResponse
  getWithdrawalRequestResponse : String → Except String WithdrawRequestResponse
  sendInvoiceForWithdrawRequest : String → Except String OkResponse

/-- The `?` operator on the result of a library or a server. -/
def orErr {α : Type} (context : String) (x : Except String α) : Except Failure α :=
  x.mapError fun e => .err (context ++ e)

def unwrap {ε α : Type} : Except ε α → Except Failure α
  | .ok a => .ok a
  | .error _ => .error .panic

def index {α : Type} (l : List α) (i : ℕ) : Except Failure α :=
  match l[i]? with
  | some a => .ok a
  | none => .error .panic

def isWhitespace (c : Char) : Bool :=
  ('\t' ≤ c ∧ c ≤ '\r') ∨ c = ' ' ∨ c = '\u0085' ∨ c = '\u00a0' ∨ c = '\u1680' ∨ ('\u2000' ≤ c ∧ c ≤ '\u200a') ∨
    c = '\u2028' ∨ c = '\u2029' ∨ c = '\u202f' ∨ c = '\u205f' ∨ c = '\u3000'

def trim (s : String) : String :=
  String.ofList (((s.toList.dropWhile isWhitespace).reverse.dropWhile isWhitespace).reverse)

/-- `str::to_uppercase`, of the ASCII letters: the upper case of no other character begins with a letter of
`LNURL`, so `is_lnurl` says the same. -/
def toUppercase (s : String) : String := String.ofList (s.toList.map Char.toUpper)

def isLnurl (lnurlIdentifier : String) : Bool := startsWith (toUppercase (trim lnurlIdentifier)) "LNURL"

def parseLnurl (L : LnurlLib) (lnurl : String) : Except Failure String := do
  let data ← orErr "Failed to decode lnurl: " (L.bech32Decode lnurl)
  let vec ← orErr "Failed to base32 decode data: " (L.fromBase32 data)
  match String.fromUTF8? ⟨vec.toArray⟩ with
  | none => throw (.err ("Failed to convert to utf-8: " ++ L.utf8Error vec))
  | some url => return url

def parseLightningAddress (lightningAddress : String) : Except Failure String :=
  match split lightningAddress '@' with
  | [username, domain] =>
    if username = "" then .error (.err "Username can not be empty")
    else if domain = "" then .error (.err "Domain can not be empty")
    else .ok ("https://" ++ domain ++ "/.well-known/lnurlp/" ++ username)
  | _ => .error (.err "The provided lightning address is improperly formatted")

def identifierUrl (L : LnurlLib) (lnurlIdentifier : String) : Except Failure String :=
  if isLnurl lnurlIdentifier then parseLnurl L lnurlIdentifier else parseLightningAddress lnurlIdentifier

def parseInvoice (L : LnurlLib) (invoiceStr : String) : Except Failure L.Invoice :=
  orErr "Failed to parse invoice: " (L.invoiceFromStr invoiceStr)

/-! ### Requests -/

/-- The value of an `AmountOrAny` of `cln`. -/
inductive AmountOrAny where
  | amount (msat : UInt64)
  | any
  deriving DecidableEq, Repr

/-- `InvoiceRequest` of `cln`, as far as `withdraw` sets it. -/
structure InvoiceRequest where
  amountMsat : Option AmountOrAny
  description : String
  deriving DecidableEq, Repr

/-- What is sent to a server or to the node. -/
inductive Request where
  | getPayRequestResponse (url : String)
  | getPayRequestCallbackResponse (url : String)
  | getWithdrawalRequestResponse (url : String)
  | invoice (req : InvoiceRequest)
  | sendInvoiceForWithdrawRequest (url : String)
  deriving DecidableEq, Repr

/-- A future with the requests it sends when it is awaited.  As a value it has sent nothing. -/
abbrev Async := ExceptT Failure (StateM (List Request))

namespace Async

/-- The result of a future and the requests that are sent after it. -/
def run {α : Type} (x : Async α) (sent : List Request) : Except Failure α × List Request := x sent

/-- What needs no request. -/
def lift {α : Type} (x : Except Failure α) : Async α := fun sent => (x, sent)

def request {α : Type} (r : Request) (answer : Except String α) : Async α :=
  fun sent => (orErr "" answer, sent ++ [r])

end Async

example : isLnurl " lnurl1dp68gurn8ghj7" = true := by decide

example : parseLightningAddress "satoshi@cipherpunk.com" =
    .ok "https://cipherpunk.com/.well-known/lnurlp/satoshi" := by decide +kernel

/-! ### What the parsers leave -/

theorem orErr_eq_ok {α : Type} {context : String} {x : Except String α} {a : α} :
    orErr context x = .ok a ↔ x = .ok a := mapError_eq_ok

theorem orErr_ne_panic {α : Type} (context : String) (x : Except String α) : orErr context x ≠ .error .panic := by
  cases x <;> simp [orErr, Except.mapError]

namespace Async

variable {α β : Type}

theorem run_bind (x : Async α) (f : α → Async β) (sent : List Request) :
    (x >>= f).run sent =
      match x.run sent with
      | (.ok a, sent') => (f a).run sent'
      | (.error e, sent') => (.error e, sent') := by
  simp only [bind, ExceptT.bind, ExceptT.mk, ExceptT.bindCont, Async.run, StateT.bind]
  rcases x sent with ⟨_ | _, _⟩ <;> rfl

theorem run_bind_eq_ok {x : Async α} {f : α → Async β} {sent sent' : List Request} {b : β} :
    (x >>= f).run sent = (.ok b, sent') ↔
      ∃ a sent₁, x.run sent = (.ok a, sent₁) ∧ (f a).run sent₁ = (.ok b, sent') := by
  rw [run_bind]
  rcases x.run sent with ⟨e | a, sent₁⟩
  · simp
  · simp

theorem run_bind_ne_error_iff {x : Async α} {f : α → Async β} {sent : List Request} {e : Failure} :
    ((x >>= f).run sent).1 ≠ .error e ↔
      (x.run sent).1 ≠ .error e ∧ ∀ a sent', x.run sent = (.ok a, sent') → ((f a).run sent').1 ≠ .error e := by
  rw [run_bind]
  rcases x.run sent with ⟨e' | a, sent'⟩
  · simp
  · simp

theorem run_lift_eq_ok {x : Except Failure α} {sent sent' : List Request} {a : α} :
    (lift x).run sent = (.ok a, sent') ↔ x = .ok a ∧ sent' = sent := by
  simp [run, lift, eq_comm]

theorem run_request_eq_ok {r : Request} {answer : Except String α} {sent sent' : List Request} {a : α} :
    (request r answer).run sent = (.ok a, sent') ↔ answer = .ok a ∧ sent' = sent ++ [r] := by
  have hanswer : orErr "" answer = .ok a ↔ answer = .ok a := orErr_eq_ok
  rw [← hanswer]
  simp [run, request, eq_comm]

theorem run_lift_bind_ne_error_iff {x : Except Failure α} {f : α → Async β} {sent : List Request} {e : Failure} :
    ((lift x >>= f).run sent).1 ≠ .error e ↔ x ≠ .error e ∧ ∀ a, x = .ok a → ((f a).run sent).1 ≠ .error e := by
  rw [run_bind_ne_error_iff]
  simp only [run_lift_eq_ok, and_imp]
  refine and_congr Iff.rfl ⟨fun h a hx => h a _ hx rfl, ?_⟩
  rintro h a _ hx rfl
  exact h a hx

/-- A future takes no request back. -/
def Extends (x : Async α) : Prop := ∀ sent, sent <+: (x.run sent).2

theorem extends_lift (x : Except Failure α) : Extends (lift x) := fun _ => List.prefix_rfl

theorem extends_request (r : Request) (answer : Except String α) : Extends (request r answer) := fun sent =>
  List.prefix_append sent [r]

theorem Extends.bind {x : Async α} {f : α → Async β} (hx : Extends x) (hf : ∀ a, Extends (f a)) :
    Extends (x >>= f) := by
  intro sent
  have hsent := hx sent
  rw [run_bind]
  rcases hrun : x.run sent with ⟨e | a, sent'⟩
  · rwa [hrun] at hsent
  · rw [hrun] at hsent
    exact hsent.trans (hf a sent')

theorem run_lift_bind {x : Except Failure α} {a : α} (h : x = .ok a) (f : α → Async β) (sent : List Request) :
    (lift x >>= f).run sent = (f a).run sent := by
  rw [h]
  rfl

theorem prefix_request_bind (r : Request) (answer : Except String α) {f : α → Async β} (hf : ∀ a, Extends (f a))
    (sent : List Request) : sent ++ [r] <+: ((request r answer >>= f).run sent).2 := by
  rw [run_bind]
  cases answer with
  | error e => exact List.prefix_rfl
  | ok a => exact hf a _

theorem run_request_bind_ne_panic_iff {r : Request} {answer : Except String α} {f : α → Async β}
    {sent : List Request} :
    ((request r answer >>= f).run sent).1 ≠ .error .panic ↔
      ∀ a, answer = .ok a → ((f a).run (sent ++ [r])).1 ≠ .error .panic := by
  rw [run_bind_ne_error_iff]
  simp only [run_request_eq_ok, and_imp]
  constructor
  · exact fun h a ha => h.2 a _ ha rfl
  · refine fun h => ⟨orErr_ne_panic "" answer, ?_⟩
    rintro a _ ha rfl
    exact h a ha

end Async

theorem index_eq_ok {α : Type} {l : List α} {i : ℕ} {a : α} : index l i = .ok a ↔ l[i]? = some a := by
  unfold index
  cases l[i]? <;> simp

theorem index_eq_error {α : Type} {l : List α} {i : ℕ} {e : Failure} :
    index l i = .error e ↔ e = .panic ∧ l[i]? = none := by
  unfold index
  cases l[i]? <;> simp [eq_comm]

theorem parseLnurl_ne_panic (L : LnurlLib) (lnurl : String) : parseLnurl L lnurl ≠ .error .panic := by
  intro h
  rcases bind_eq_error.1 h with h | ⟨data, -, h⟩
  · exact orErr_ne_panic _ _ h
  rcases bind_eq_error.1 h with h | ⟨vec, -, h⟩
  · exact orErr_ne_panic _ _ h
  split at h
  · cases h
  · cases h

theorem parseLightningAddress_ne_panic (address : String) : parseLightningAddress address ≠ .error .panic := by
  unfold parseLightningAddress
  split
  · split_ifs <;> simp
  · simp

theorem identifierUrl_ne_panic (L : LnurlLib) (ident : String) : identifierUrl L ident ≠ .error .panic := by
  unfold identifierUrl
  split_ifs
  · exact parseLnurl_ne_panic L ident
  · exact parseLightningAddress_ne_panic ident

/-! ### Plain libraries

Libraries that do on a few texts what the real ones do: URLs of the form `https://host/path` that need no escapes,
one list of metadata with its hash, and invoices without an amount or for 5000 millisatoshis.
-/

def symbolBits (x : Fin 32) : List Bool := [4, 3, 2, 1, 0].map x.val.testBit

/-- The bytes of the bits; what is left over is padding. -/
def bytesOfBits : List Bool → Bytes
  | a :: b :: c :: d :: e :: f :: g :: h :: rest =>
    UInt8.ofNat ([a, b, c, d, e, f, g, h].foldl (fun n bit => 2 * n + bit.toNat) 0) :: bytesOfBits rest
  | _ => []

structure PlainInvoice where
  text : String
  amount : Option UInt64
  hash : String
  deriving DecidableEq, Repr

def plainMetadata : String := "[[\"text/identifier\",\"a@b\"]]"

def plainHash : String := "d78c40d669565a0a6f50c2b037febbc40716c19ce930612b24bbd78722e22205"

def plainLnurl : LnurlLib where
  Url := String
  Invoice := PlainInvoice
  bech32Decode s :=
    -- without the check of the checksum
    match split s '1' with
    | [_, data] => .ok ((data.toList.take (data.length - 6)).map fun c =>
        Fin.ofNat 32 ("qpzry9x8gf2tvdw0s3jn54khce6mua7l".toList.idxOf c.toLower))
    | _ => .error "missing human-readable separator, \"1\""
  fromBase32 data := .ok (bytesOfBits (data.flatMap symbolBits))
  utf8Error _ := "invalid utf-8 sequence"
  urlParse s := if startsWith s "https://" then .ok s else .error "relative URL without a base"
  host url := (split url '/')[2]?
  appendPair url key value := url ++ (if containsStr url "?" then "&" else "?") ++ key ++ "=" ++ value
  urlToString := id
  queryPairs _ := []
  metadataFromStr s :=
    if s = plainMetadata then .ok [["text/identifier", "a@b"]]
    else if s = "[[]]" then .ok [[]]
    else .error "expected value at line 1 column 1"
  invoiceFromStr s :=
    if s = "lnbc1amountless" then .ok ⟨s, none, plainHash⟩
    else if s = "lnbc50n1stated" then .ok ⟨s, some 5000, plainHash⟩
    else .error "Invalid bech32"
  invoiceToString invoice := invoice.text
  amountMilliSatoshis invoice := invoice.amount
  description invoice := .hash invoice.hash
  sha256Digest s := if s = plainMetadata then plainHash else ""

example : parseLnurl plainLnurl "LNURL1DP68GURN8GHJ7C30WUWX582E" = .ok "https://b/w" := by decide +kernel

end Greenlight.Lnurl
