import RpcBroker.Model.Broker
import RpcBroker.Model.Server
import RpcBroker.Proofs.Headers
/-!
# RpcBroker.Proofs.Messages

The **messages the programs pack**, as sequences of headers.

Each packer is a list of packer calls; here each is shown to parse, with nothing
left over, to the headers it is meant to write (`requestHeaders`,
`responseHeaders`, `registrationHeaders`, `ackHeaders`). The arguments of a
request and the result of a response go through a format string; `FormatFits`
says that a format and the arguments passed with it go together, and then the
count in the array header is the number of values behind it.

From there on the wire is out of the picture: `carries_of_parse` hands these
sequences to the readers.
-/

namespace RpcBroker

open CLib Msgpack

variable {E : Libs}

/-! ### Headers the packers write -/

def Header.ofInt (k : Hdr) (i : Int32) : Header := ⟨k.text.chars, .ofInt i⟩

def Header.ofStr (k : Hdr) (s : CString) : Header := ⟨k.text.chars, .str s.chars⟩

def Header.ofArray (k : Hdr) (elems : List Object) : Header := ⟨k.text.chars, .array elems⟩

@[simp] theorem Header.key_ofInt (k : Hdr) (i : Int32) : (Header.ofInt k i).key = k.text :=
  CString.ofBytes_chars _

@[simp] theorem Header.key_ofStr (k : Hdr) (s : CString) : (Header.ofStr k s).key = k.text :=
  CString.ofBytes_chars _

@[simp] theorem Header.key_ofArray (k : Hdr) (elems : List Object) :
    (Header.ofArray k elems).key = k.text :=
  CString.ofBytes_chars _

/-- An integer header carries its integer under its own name, if the reader
takes it for a non-negative one. -/
@[simp] theorem Header.int?_ofInt (l k : Hdr) (i : Int32) :
    (Header.ofInt k i).int? l.text = if l = k ∧ 0 ≤ i then some i else none := by
  have hkey : (Header.ofInt k i).key = k.text := Header.key_ofInt k i
  unfold Header.int?
  rw [hkey]
  by_cases hi : 0 ≤ i
  · simp only [Header.ofInt, Object.ofInt_nonneg hi, Hdr.text_inj, intOfWord_wordOfInt, hi,
      and_true]
  · simp [Header.ofInt, Object.ofInt_neg hi, hi]

@[simp] theorem Header.str?_ofInt (look : CString) (k : Hdr) (i : Int32) :
    (Header.ofInt k i).str? look = none := by
  by_cases hi : 0 ≤ i
  · simp only [Header.str?, Header.ofInt, Object.ofInt_nonneg hi]
  · simp only [Header.str?, Header.ofInt, Object.ofInt_neg hi]

@[simp] theorem Header.str?_ofStr (l k : Hdr) (s : CString) :
    (Header.ofStr k s).str? l.text = if l = k then some s else none := by
  have hkey : (Header.ofStr k s).key = k.text := Header.key_ofStr k s
  unfold Header.str?
  rw [hkey]
  simp [Header.ofStr]

@[simp] theorem Header.int?_ofStr (look : CString) (k : Hdr) (s : CString) :
    (Header.ofStr k s).int? look = none := rfl

@[simp] theorem Header.int?_ofArray (look : CString) (k : Hdr) (elems : List Object) :
    (Header.ofArray k elems).int? look = none := rfl

@[simp] theorem Header.str?_ofArray (look : CString) (k : Hdr) (elems : List Object) :
    (Header.ofArray k elems).str? look = none := rfl

theorem completes_packMapInt (k : Hdr) (i : Int32) :
    Completes (packMapInt k.text i) (Header.ofInt k i).object :=
  Completes.entry (Completes.str _) (Completes.int i)

theorem completes_packMapStr (k : Hdr) (s : CString) :
    Completes (packMapStr k.text s) (Header.ofStr k s).object :=
  Completes.entry (Completes.str _) (Completes.str _)

/-- A string written by a header call and a body call. -/
theorem completes_cstring (s : CString) :
    Completes [.packStr s.strlen, .packStrBody s.chars] (.str s.chars) :=
  Completes.str _

/-! ### Formats -/

/-- The object an argument is read back as. -/
def Arg.object : Arg → Object
  | .int v => .ofInt v
  | .str s => .str s.chars

/-- The calls that pack an argument. -/
def Arg.tokens : Arg → List Token
  | .int v => [.packInt v]
  | .str s => [.packStr s.strlen, .packStrBody s.chars]

theorem Arg.completes (a : Arg) : Completes a.tokens a.object := by
  cases a with
  | int v => exact Completes.int v
  | str s => exact completes_cstring s

/-- Every `%` of the format is followed by `d` or `s`, and the arguments are an
`int` for each `%d` and a string for each `%s`, in order. -/
inductive FormatFits : List UInt8 → List Arg → Prop
  | nil : FormatFits [] []
  | other {p : UInt8} {fmt : List UInt8} {args : List Arg} (hp : p ≠ percent)
      (h : FormatFits fmt args) : FormatFits (p :: fmt) args
  | int {fmt : List UInt8} {args : List Arg} (v : Int32) (h : FormatFits fmt args) :
      FormatFits (percent :: convInt :: fmt) (.int v :: args)
  | str {fmt : List UInt8} {args : List Arg} (s : CString) (h : FormatFits fmt args) :
      FormatFits (percent :: convStr :: fmt) (.str s :: args)

/-- A format announces as many values as there are arguments. -/
theorem FormatFits.numArgs {fmt : List UInt8} {args : List Arg} (h : FormatFits fmt args) :
    numArgs fmt = args.length := by
  induction h with
  | nil => rfl
  | other hp _ ih => rw [RpcBroker.numArgs, if_pos hp, ih]
  | int v _ ih =>
      rw [RpcBroker.numArgs, if_neg (by simp), RpcBroker.numArgs, if_pos (by decide), ih]
      rfl
  | str s _ ih =>
      rw [RpcBroker.numArgs, if_neg (by simp), RpcBroker.numArgs, if_pos (by decide), ih]
      rfl

/-- A character that is no `%` is passed over. -/
theorem packFmt_other {p : UInt8} (hp : p ≠ percent) (fmt : List UInt8) (args : List Arg) :
    packFmt (p :: fmt) args = packFmt fmt args := by
  cases fmt with
  | nil => simp [packFmt, hp]
  | cons c fmt => simp [packFmt, hp]

/-- The packing loop writes the arguments, one after the other. -/
theorem FormatFits.packFmt {fmt : List UInt8} {args : List Arg} (h : FormatFits fmt args) :
    packFmt fmt args = some (args.map Arg.tokens).flatten := by
  induction h with
  | nil => rfl
  | other hp _ ih => rw [packFmt_other hp, ih]
  | int v _ ih =>
      rw [RpcBroker.packFmt, if_neg (by simp), if_pos rfl, ih]
      rfl
  | str s _ ih =>
      rw [RpcBroker.packFmt, if_neg (by simp), if_neg (by decide), if_pos rfl, ih]
      rfl

theorem completes_args (args : List Arg) :
    List.Forall₂ Completes (args.map Arg.tokens) (args.map Arg.object) := by
  induction args with
  | nil => exact .nil
  | cons a args ih => exact .cons a.completes ih

/-! ### The request -/

/-- The headers of a client's request. -/
def requestHeaders (client : Details) (rand : Int32) (op : CString) (args : List Arg) :
    List Header :=
  [.ofInt .requestType RequestType.serviceRequest.code, .ofInt .messageId rand,
    .ofStr .senderAddress client.address, .ofStr .replyPort client.port,
    .ofStr .operation op, .ofArray .serviceParams (args.map Arg.object)]

/-- The header `params` with its array, as the client writes it. -/
theorem completes_params (args : List Arg) :
    Completes ([.packMap 1, .packStr 6, .packStrBody (Hdr.serviceParams.text.chars.take 6)] ++
        (.packArray args.length :: (args.map Arg.tokens).flatten))
      (Header.ofArray .serviceParams (args.map Arg.object)).object := by
  have hname : Completes [.packStr 6, .packStrBody (Hdr.serviceParams.text.chars.take 6)]
      (.str Hdr.serviceParams.text.chars) := Completes.str Hdr.serviceParams.text.chars
  have harray := Completes.array (completes_args args)
  rw [List.length_map] at harray
  exact Completes.entry hname harray

theorem packClientRequestData_parse (client : Details) (rand : Int32) (op : CString)
    {fmt : CString} {args : List Arg} (h : FormatFits fmt.chars args) :
    ∃ ts, packClientRequestData client rand op fmt args = some ts ∧
      parse ts = some ((requestHeaders client rand op args).map Header.object) := by
  refine ⟨_, by rw [packClientRequestData, h.packFmt]; rfl, ?_⟩
  rw [h.numArgs]
  simp only [List.append_assoc, List.singleton_append]
  refine (completes_packMapInt _ _).encodes.parse_append ?_
  refine (completes_packMapInt _ _).encodes.parse_append ?_
  refine (completes_packMapStr _ _).encodes.parse_append ?_
  refine (completes_packMapStr _ _).encodes.parse_append ?_
  refine (completes_packMapStr _ _).encodes.parse_append ?_
  exact (completes_params args).encodes.parse

/-! ### The response -/

/-- The headers of a server's response. -/
def responseHeaders (op : CString) (message_id : Int32) (result : Arg) : List Header :=
  [.ofInt .requestType RequestType.serviceRequestResponse.code, .ofInt .messageId message_id,
    .ofStr .operation op, ⟨Hdr.reply.text.chars, result.object⟩]

theorem packClientResponseData_parse (op : CString) (message_id : Int32) {fmt : CString}
    {result : Arg} (h : FormatFits fmt.chars [result]) :
    ∃ ts, packClientResponseData op message_id fmt [result] = some ts ∧
      parse ts = some ((responseHeaders op message_id result).map Header.object) := by
  have hname : Completes [.packStr 5, .packStrBody (Hdr.reply.text.chars.take 5)]
      (.str Hdr.reply.text.chars) := Completes.str Hdr.reply.text.chars
  refine ⟨_, by rw [packClientResponseData, h.packFmt]; rfl, ?_⟩
  simp only [List.append_assoc, List.map_cons, List.map_nil, List.flatten_cons,
    List.flatten_nil, List.append_nil]
  refine (completes_packMapInt _ _).encodes.parse_append ?_
  refine (completes_packMapInt _ _).encodes.parse_append ?_
  refine (completes_packMapStr _ _).encodes.parse_append ?_
  exact (Completes.entry hname result.completes).encodes.parse

/-! ### The registration -/

/-- The headers of a server's registration: the table comes out in reverse. -/
def registrationHeaders (server : Details) (services : List CString) : List Header :=
  [.ofInt .requestType RequestType.serviceRegistration.code,
    .ofStr .senderAddress server.address, .ofStr .replyPort server.port,
    .ofStr .serviceName (.lit "theServiceName"),
    .ofInt .servicesCount (Int32.ofNat services.length),
    .ofArray .services (services.reverse.map fun s => .str s.chars)]

/-- The calls that pack a table of names. -/
def nameTokens (names : List CString) : List (List Token) :=
  names.map fun s => [.packStr s.strlen, .packStrBody s.chars]

theorem completes_names (names : List CString) :
    List.Forall₂ Completes (nameTokens names) (names.map fun s => .str s.chars) := by
  induction names with
  | nil => exact .nil
  | cons s names ih => exact .cons (completes_cstring s) ih

theorem packService_str {s : CString} (h : s ≠ .empty) :
    packService E (.str s) = [.packStr s.strlen, .packStrBody s.chars] := by
  simp [packService, h]

theorem packService_entry (services : List CString) (i : Nat) :
    packService E (tableEntry services i) =
      (nameTokens (services[i]?.toList.filter (· ≠ .empty))).flatten := by
  unfold tableEntry
  cases services[i]? with
  | none => rfl
  | some s =>
      by_cases hs : s = .empty
      · simp [hs, packService, nameTokens]
      · simp [hs, packService_str, nameTokens]

/-- Counting down from index `i`, the loop packs the first `i + 1` names, the
last one first, without the empty ones. (`take` stops at the end of the table, the
loop skips the terminator.) -/
theorem packServicesLoop_filter (services : List CString) :
    ∀ i, packServicesLoop E services i =
      (nameTokens ((services.take (i + 1)).filter (· ≠ .empty)).reverse).flatten := by
  intro i
  induction i with
  | zero =>
      rw [packServicesLoop, packService_entry]
      cases services with
      | nil => rfl
      | cons s services => by_cases hs : s = .empty <;> simp [hs, nameTokens]
  | succ i ih =>
      rw [packServicesLoop, packService_entry, ih, List.take_add_one (i := i + 1),
        List.filter_append, List.reverse_append]
      simp only [nameTokens, List.map_append, List.flatten_append]
      cases services[i + 1]? with
      | none => rfl
      | some s => by_cases hs : s = .empty <;> simp [hs]

theorem packServicesLoop_eq {services : List CString} (hne : ∀ s ∈ services, s ≠ .empty) (i : Nat) :
    packServicesLoop E services i = (nameTokens (services.take (i + 1)).reverse).flatten := by
  have hall : (services.take (i + 1)).filter (· ≠ .empty) = services.take (i + 1) := by
    refine List.filter_eq_self.mpr ?_
    intro s hs
    exact decide_eq_true (hne s (List.mem_of_mem_take hs))
  rw [packServicesLoop_filter, hall]

theorem serviceRegisterWithBroker_parse (server : Details) {services : List CString}
    (hne : ∀ s ∈ services, s ≠ .empty) (hlen : services.length < 0x80000000) :
    ∃ ts, serviceRegisterWithBroker E server services = some ts ∧
      parse ts = some ((registrationHeaders server services).map Header.object) := by
  have hname : Completes [.packStr 8, .packStrBody (Hdr.services.text.chars.take 8)]
      (.str Hdr.services.text.chars) := Completes.str Hdr.services.text.chars
  have harray := Completes.array (completes_names services.reverse)
  rw [List.length_map, List.length_reverse] at harray
  have htake : services.take (services.length + 1) = services :=
    List.take_of_length_le (Nat.le_succ _)
  refine ⟨_, by rw [serviceRegisterWithBroker, if_pos hlen], ?_⟩
  rw [packServicesLoop_eq hne, htake]
  simp only [List.append_assoc, List.singleton_append]
  refine (completes_packMapInt _ _).encodes.parse_append ?_
  refine (completes_packMapStr _ _).encodes.parse_append ?_
  refine (completes_packMapStr _ _).encodes.parse_append ?_
  refine (completes_packMapStr _ _).encodes.parse_append ?_
  refine (completes_packMapInt _ _).encodes.parse_append ?_
  exact (Completes.entry hname harray).encodes.parse

/-- What a message needs: only a table the counter can count has one. -/
theorem serviceRegisterWithBroker_some {server : Details} {services : List CString}
    {ts : List Token} (h : serviceRegisterWithBroker E server services = some ts) :
    services.length < 0x80000000 := by
  unfold serviceRegisterWithBroker at h
  by_cases hlen : services.length < 0x80000000
  · exact hlen
  · rw [if_neg hlen] at h
    exact absurd h (by simp)

/-! ### The acknowledgement -/

/-- The headers of the broker's acknowledgement. -/
def ackHeaders (message_id : Int32) : List Header :=
  [.ofInt .requestType RequestType.serviceRegistrationAck.code, .ofInt .messageId message_id]

theorem packSvcReqAck_parse (message_id : Int32) :
    parse (packSvcReqAck message_id) = some ((ackHeaders message_id).map Header.object) :=
  (completes_packMapInt _ _).encodes.parse_append (completes_packMapInt _ _).encodes.parse

/-! ### On the wire -/

/-- A buffer packed from tokens that parse carries the headers they parse to. -/
theorem carries_of_parse {ts : List Token} {hs : List Header}
    (h : parse ts = some (hs.map Header.object)) : E.Carries (E.pack ts) hs :=
  E.unpack_pack h

/-- A packet of the reference libraries that carries the headers. -/
def packetOf (hs : List Header) : Libs.reference.Buffer := ⟨hs.map Header.object, .«continue»⟩

/-- A client, its request for `add(20, 199)`, and the response to it; a server,
and its registration of `add`. -/
def exampleClient : Details := ⟨.lit "127.0.0.1", .lit "9091"⟩

def addRequest : Libs.reference.Buffer :=
  packetOf (requestHeaders exampleClient 7 (.lit "add") [.int 20, .int 199])

def addResponse : Libs.reference.Buffer := packetOf (responseHeaders (.lit "add") 7 (.int 219))

def exampleServer : Details := ⟨.lit "127.0.0.1", .lit "8181"⟩

def addRegistration : Libs.reference.Buffer :=
  packetOf (registrationHeaders exampleServer [.lit "add"])

end RpcBroker
