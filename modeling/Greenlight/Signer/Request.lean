import Greenlight.Signer.Auth

/-!
# The requests of a context

`decode_request` of `signer/mod.rs`, with the tables of `signer/model`: the URI of a request says which message its
payload is read as.  The decoders of `prost` are a parameter (`Prost`); of a message only the fields that the signer
reads are kept, and a `none` is a panic.
-/

namespace Greenlight

open Greenlight.Lib

structure GlConfig where
  closeToAddr : String
  deriving DecidableEq, Repr

structure SendpayRequest where
  bolt11 : Option String
  deriving DecidableEq, Repr

structure PayRequest where
  bolt11 : String
  deriving DecidableEq, Repr

structure PreapproveinvoiceRequest where
  bolt11 : String
  deriving DecidableEq, Repr

structure TrampolinePayRequest where
  bolt11 : String
  deriving DecidableEq, Repr

structure FundchannelRequest where
  id : Bytes
  deriving DecidableEq, Repr

structure SignmessageRequest where
  message : String
  deriving DecidableEq, Repr

/-- `model::Request`. -/
inductive Request where
  | glConfig (req : GlConfig)
  | lspInvoice
  | getinfo
  | listPeers
  | listFunds
  | sendPay (req : SendpayRequest)
  | listChannels
  | addGossip
  | autoCleanOnce
  | checkMessage
  | close
  | connect
  | createInvoice
  | datastore
  | createOnion
  | delDatastore
  | delExpiredInvoice
  | delInvoice
  | invoice
  | listDatastore
  | listInvoices
  | sendOnion
  | listSendPays
  | listTransactions
  | pay (req : PayRequest)
  | preApproveInvoice (req : PreapproveinvoiceRequest)
  | listNodes
  | waitAnyInvoice
  | waitInvoice
  | waitSendPay
  | newAddr
  | withdraw
  | keySend
  | fundPsbt
  | sendPsbt
  | signPsbt
  | utxoPsbt
  | txDiscard
  | txPrepare
  | txSend
  | disconnect
  | feerates
  | fundChannel (req : FundchannelRequest)
  | getRoute
  | listForwards
  | listPays
  | ping
  | setChannel
  | signMessage (req : SignmessageRequest)
  | fetchInvoice
  | stop
  | listClosedChannels
  | staticBackup
  | trampolinePay (req : TrampolinePayRequest)
  deriving DecidableEq, Repr

/-- The decoders of the messages; `decode` is that of a message, given by its name, of which no field is read. -/
structure Prost where
  decode : String → Bytes → Except String Unit
  glConfig : Bytes → Except String GlConfig
  sendpayRequest : Bytes → Except String SendpayRequest
  payRequest : Bytes → Except String PayRequest
  preapproveinvoiceRequest : Bytes → Except String PreapproveinvoiceRequest
  trampolinePayRequest : Bytes → Except String TrampolinePayRequest
  fundchannelRequest : Bytes → Except String FundchannelRequest
  signmessageRequest : Bytes → Except String SignmessageRequest

def Prost.unread (prost : Prost) (message : String) (p : Bytes) (request : Request) : Except String Request :=
  (fun _ => request) <$> prost.decode message p

/-- Decoders of messages that have nothing but a string in field 1, as `bolt11` is in those that have one. -/
def Prost.bolt11 : Prost :=
  let field1 : Bytes → Except String String := fun p =>
    match p with
    | 0x0a :: length :: value =>
      if value.length = length.toNat then .ok (String.ofList (value.map fun b => Char.ofNat b.toNat))
      else .error "buffer underflow"
    | _ => .error "invalid tag value"
  { decode := fun _ p => (fun _ => ()) <$> field1 p
    glConfig := fun p => GlConfig.mk <$> field1 p
    sendpayRequest := fun _ => .error "invalid wire type"
    payRequest := fun p => PayRequest.mk <$> field1 p
    preapproveinvoiceRequest := fun p => PreapproveinvoiceRequest.mk <$> field1 p
    trampolinePayRequest := fun p => TrampolinePayRequest.mk <$> field1 p
    fundchannelRequest := fun _ => .error "invalid wire type"
    signmessageRequest := fun p => SignmessageRequest.mk <$> field1 p }

/-- The match of a URI: the decoder of its message. -/
abbrev Decoders := List (String × (Prost → Bytes → Except String Request))

/-- `model::cln`. -/
def clnDecoders : Decoders :=
  [("/cln.Node/Getinfo", fun prost p => prost.unread "GetinfoRequest" p .getinfo),
   ("/cln.Node/ListPeers", fun prost p => prost.unread "ListpeersRequest" p .listPeers),
   ("/cln.Node/ListFunds", fun prost p => prost.unread "ListfundsRequest" p .listFunds),
   ("/cln.Node/SendPay", fun prost p => Request.sendPay <$> prost.sendpayRequest p),
   ("/cln.Node/ListChannels", fun prost p => prost.unread "ListchannelsRequest" p .listChannels),
   ("/cln.Node/AddGossip", fun prost p => prost.unread "AddgossipRequest" p .addGossip),
   ("/cln.Nonde/AutoCleanOnce", fun prost p => prost.unread "AutocleanonceRequest" p .autoCleanOnce),
   ("/cln.Node/CheckMessage", fun prost p => prost.unread "CheckmessageRequest" p .checkMessage),
   ("/cln.Node/Close", fun prost p => prost.unread "CloseRequest" p .close),
   ("/cln.Node/ConnectPeer", fun prost p => prost.unread "ConnectRequest" p .connect),
   ("/cln.Node/CreateInvoice", fun prost p => prost.unread "CreateinvoiceRequest" p .createInvoice),
   ("/cln.Node/Datastore", fun prost p => prost.unread "DatastoreRequest" p .datastore),
   ("/cln.Node/CreateOnion", fun prost p => prost.unread "CreateonionRequest" p .createOnion),
   ("/cln.Node/DelDatastore", fun prost p => prost.unread "DeldatastoreRequest" p .delDatastore),
   ("/cln.Node/DelExpiredInvoice", fun prost p => prost.unread "DelinvoiceRequest" p .delExpiredInvoice),
   ("/cln.Node/DelInvoice", fun prost p => prost.unread "DelinvoiceRequest" p .delInvoice),
   ("/cln.Node/Invoice", fun prost p => prost.unread "InvoiceRequest" p .invoice),
   ("/cln.Node/ListDatastore", fun prost p => prost.unread "ListdatastoreRequest" p .listDatastore),
   ("/cln.Node/ListInvoices", fun prost p => prost.unread "ListinvoicesRequest" p .listInvoices),
   ("/cln.Node/SendOnion", fun prost p => prost.unread "SendonionRequest" p .sendOnion),
   ("/cln.Node/ListSendPays", fun prost p => prost.unread "ListsendpaysRequest" p .listSendPays),
   ("/cln.Node/ListTransactions", fun prost p => prost.unread "ListtransactionsRequest" p .listTransactions),
   ("/cln.Node/Pay", fun prost p => Request.pay <$> prost.payRequest p),
   ("/cln.Node/ListNodes", fun prost p => prost.unread "ListnodesRequest" p .listNodes),
   ("/cln.Node/WaitAnyInvoice", fun prost p => prost.unread "WaitanyinvoiceRequest" p .waitAnyInvoice),
   ("/cln.Node/WaitInvoice", fun prost p => prost.unread "WaitinvoiceRequest" p .waitInvoice),
   ("/cln.Node/WaitSendPay", fun prost p => prost.unread "WaitsendpayRequest" p .waitSendPay),
   ("/cln.Node/NewAddr", fun prost p => prost.unread "NewaddrRequest" p .newAddr),
   ("/cln.Node/Withdraw", fun prost p => prost.unread "WithdrawRequest" p .withdraw),
   ("/cln.Node/KeySend", fun prost p => prost.unread "KeysendRequest" p .keySend),
   ("/cln.Node/FundPsbt", fun prost p => prost.unread "FundpsbtRequest" p .fundPsbt),
   ("/cln.Node/SendPsbt", fun prost p => prost.unread "SendpsbtRequest" p .sendPsbt),
   ("/cln.Node/SignPsbt", fun prost p => prost.unread "SignpsbtRequest" p .signPsbt),
   ("/cln.Node/UtxoPsbt", fun prost p => prost.unread "UtxopsbtRequest" p .utxoPsbt),
   ("/cln.Node/TxDiscard", fun prost p => prost.unread "TxdiscardRequest" p .txDiscard),
   ("/cln.Node/TxPrepare", fun prost p => prost.unread "TxprepareRequest" p .txPrepare),
   ("/cln.Node/TxSend", fun prost p => prost.unread "TxsendRequest" p .txSend),
   ("/cln.Node/Disconnect", fun prost p => prost.unread "DisconnectRequest" p .disconnect),
   ("/cln.Node/Feerates", fun prost p => prost.unread "FeeratesRequest" p .feerates),
   ("/cln.Node/FundChannel", fun prost p => Request.fundChannel <$> prost.fundchannelRequest p),
   ("/cln.Node/GetRoute", fun prost p => prost.unread "GetrouteRequest" p .getRoute),
   ("/cln.Node/ListForwards", fun prost p => prost.unread "ListforwardsRequest" p .listForwards),
   ("/cln.Node/ListPays", fun prost p => prost.unread "ListpaysRequest" p .listPays),
   ("/cln.Node/Ping", fun prost p => prost.unread "PingRequest" p .ping),
   ("/cln.Node/SetChannel", fun prost p => prost.unread "SetchannelRequest" p .setChannel),
   ("/cln.Node/SignMessage", fun prost p => Request.signMessage <$> prost.signmessageRequest p),
   ("/cln.Node/FetchInvoice", fun prost p => prost.unread "FetchinvoiceRequest" p .fetchInvoice),
   ("/cln.Node/Stop", fun prost p => prost.unread "StopRequest" p .stop),
   ("/cln.Node/ListClosedChannels", fun prost p => prost.unread "ListclosedchannelsRequest" p .listClosedChannels),
   ("/cln.Node/StaticBackup", fun prost p => prost.unread "StaticbackupRequest" p .staticBackup),
   ("/cln.Node/PreApproveInvoice",
    fun prost p => Request.preApproveInvoice <$> prost.preapproveinvoiceRequest p)]

/-- `model::greenlight`. -/
def greenlightDecoders : Decoders :=
  [("/greenlight.Node/Configure", fun prost p => Request.glConfig <$> prost.glConfig p),
   ("/greenlight.Node/TrampolinePay", fun prost p => Request.trampolinePay <$> prost.trampolinePayRequest p),
   ("/greenlight.Node/LspInvoice", fun prost p => prost.unread "LspInvoiceRequest" p .lspInvoice)]

/-- `decode_request` of `model::cln` and of `model::greenlight`. -/
def Decoders.decodeRequest (decoders : Decoders) (prost : Prost) (uri : String) (p : Bytes) :
    Except String Request :=
  match decoders.lookup uri with
  | some decode => decode prost p
  | none => .error ("Unknown URI " ++ uri ++ ", can't decode payload")

/-- `decode_request`: the payload comes after the compression flag, which has to be off, and the four bytes of its
length. -/
def decodeRequest (prost : Prost) (r : PendingRequest) : Option (Except String Request) :=
  if r.request.head? ≠ some 0 then none
  else if r.request.length < 5 then none
  else
    let payload := r.request.drop 5
    match Decoders.decodeRequest clnDecoders prost r.uri payload with
    | .ok request => some (.ok request)
    | .error _ => some (Decoders.decodeRequest greenlightDecoders prost r.uri payload)

/-- The requests of the context: those accepted by `check_request_auth` that decode. -/
def Signer.contextRequests (s : Signer) (prost : Prost) (now : ℤ) (requests : List PendingRequest) :
    Option (List Request) := do
  let accepted := (s.checkRequestAuth now requests).filterMap Except.toOption
  let decoded ← accepted.mapM (decodeRequest prost)
  return decoded.filterMap Except.toOption

/-- `request` is what the accepted request `p` decodes to. -/
structure Signer.Derives (s : Signer) (prost : Prost) (now : ℤ) (p : PendingRequest) (request : Request) :
    Prop where
  accepts : s.Accepts now p
  decodes : decodeRequest prost p = some (.ok request)

/-- The context is what the accepted requests of the list decode to. -/
theorem Signer.mem_contextRequests {s : Signer} {prost : Prost} {now : ℤ} {requests : List PendingRequest}
    {context : List Request} (h : s.contextRequests prost now requests = some context) {request : Request} :
    request ∈ context ↔ ∃ p ∈ requests, s.Derives prost now p request := by
  obtain ⟨decoded, hdecoded, h⟩ := Option.bind_eq_some_iff.1 h
  obtain rfl := Option.some.inj h
  simp only [List.mem_filterMap, toOption_eq_some, mem_mapM_iff hdecoded, exists_eq_right,
    ok_mem_checkRequestAuth]
  constructor
  · rintro ⟨p, ⟨hmem, haccepts⟩, hdec⟩
    exact ⟨p, hmem, haccepts, hdec⟩
  · rintro ⟨p, hmem, hderives⟩
    exact ⟨p, ⟨hmem, hderives.accepts⟩, hderives.decodes⟩

theorem Signer.contextRequests_singleton {s : Signer} {prost : Prost} {now : ℤ} {p : PendingRequest}
    {request : Request} (h : s.Derives prost now p request) : s.contextRequests prost now [p] = some [request] := by
  have hok : s.checkRequest now p = .ok p := checkRequest_eq_ok.2 ⟨rfl, h.accepts.signature, h.accepts.rune⟩
  have hauth : s.checkRequestAuth now [p] = [.ok p] := by
    simp [checkRequestAuth, h.accepts.isSigned, hok]
  simp [contextRequests, hauth, Except.toOption, h.decodes]

end Greenlight
