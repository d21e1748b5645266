import RpcBroker.Lib.Perl
import RpcBroker.Model.Server
/-!
# RpcBroker.Model.Generators

**The two stub generators**, `client/generate_proxy.pl` and
`server/generate_proxy.pl`: what each prints for one line of
`server_interface.h`.

The scripts are copies of each other. Both match the line against one regular
expression and sort the words of the parameter list by parity into `@paramTypes`
and `@paramNames`; the counter they use is one ahead for the names, so that
`@paramNames` starts with the empty string it was declared with. The client's
script also builds the server's `$paramGets`, and prints nothing of it.
-/

namespace RpcBroker

open CLib Perl

/-! ### Interface lines -/

/-- An identifier of C, as far as its characters go. -/
structure Identifier where
  chars : Text
  nonempty : chars ≠ []
  word : ∀ c ∈ chars, isWord c = true
  noDigit : ∀ c ∈ chars.head?, ¬ (48 ≤ c ∧ c ≤ 57)
  deriving DecidableEq

/-- The text can be an identifier. -/
def isIdentifier (t : Text) : Bool :=
  !t.isEmpty && t.all isWord && t.head?.all fun c => !(48 ≤ c && c ≤ 57)

theorem nonempty_of_isIdentifier {t : Text} (h : isIdentifier t = true) : t ≠ [] := by
  rintro rfl
  exact absurd h (by decide)

theorem word_of_isIdentifier {t : Text} (h : isIdentifier t = true) :
    ∀ c ∈ t, isWord c = true := by
  simp only [isIdentifier, Bool.and_eq_true] at h
  exact forall_of_all h.1.2

theorem noDigit_of_isIdentifier {t : Text} (h : isIdentifier t = true) :
    ∀ c ∈ t.head?, ¬ (48 ≤ c ∧ c ≤ 57) := by
  simp only [isIdentifier, Bool.and_eq_true] at h
  intro c hc
  have hfirst := h.2
  rw [Option.mem_def.mp hc] at hfirst
  rintro ⟨hlo, hhi⟩
  simp [hlo, hhi] at hfirst

def Identifier.ofText (t : Text) (h : isIdentifier t = true) : Identifier :=
  ⟨t, nonempty_of_isIdentifier h, word_of_isIdentifier h, noDigit_of_isIdentifier h⟩

/-- A prototype of `server_interface.h`. -/
structure Prototype where
  ret : CType
  name : Identifier
  params : List (CType × Identifier)
  deriving DecidableEq

/-- The parameter as the client's stub is modelled with it. -/
def declared (param : CType × Identifier) : Param := ⟨param.1, .ofBytes param.2.chars⟩

/-- A parameter as the interface declares it. -/
def paramText (param : CType × Identifier) : Text := param.1.text.chars ++ text " " ++ param.2.chars

/-- `T1 a1, T2 a2, ..., Tn an`. -/
def Prototype.paramsText (proto : Prototype) : Text := join (text ", ") (proto.params.map paramText)

/-- `R f(T1 a1, T2 a2, ..., Tn an);`. -/
def Prototype.line (proto : Prototype) : Text :=
  proto.ret.text.chars ++ text " " ++ proto.name.chars ++ text "(" ++ proto.paramsText ++ text ");"

/-- What ends a line of a file: only the last line may lack it. -/
def lineEnd : Bool → Text
  | true => text "\n"
  | false => []

/-- `/([\w*]+)\s+(\w+)\s*\((.*)\);/` -/
def prototypePattern : List Item :=
  [.plus fun c => isWord c || c = 42, .plus isSpace, .plus isWord, .star isSpace, .one (· = 40),
    .star (· ≠ 10), .one (· = 41), .one (· = 59)]

/-- `$1`, `$2` and `$3`: `$fnRet`, `$fnName` and `$fnParams`. -/
def matchPrototype (line : Text) : Option (Text × Text × Text) :=
  match search prototypePattern line with
  | some [fnRet, _, fnName, _, _, fnParams, _, _] => some (fnRet, fnName, fnParams)
  | _ => none

/-! ### The parameter list -/

/-- The variables of the loop over `@params`. -/
structure ParamScan where
  format : Text
  paramTypes : List Text
  paramNames : List Text
  paramCount : Nat
  deriving DecidableEq

/-- `my @paramNames = ''` gives an array of one empty string. -/
def ParamScan.init : ParamScan := ⟨[], [[]], [[]], 0⟩

/-- One round of the loop: words at even positions are types. `conv` is what a type
appends to `$format`. -/
def scanToken (conv : Text → Text) (i : Nat) (token : Text) (scan : ParamScan) : ParamScan :=
  if i % 2 = 0 then
    { scan with
      format := scan.format ++ conv token
      paramTypes := assign scan.paramTypes scan.paramCount token
      paramCount := scan.paramCount + 1 }
  else
    { scan with
      paramNames := assign scan.paramNames scan.paramCount (token.filter (· ≠ 44)) }

/-- `for( my $i = 0; $i < scalar @params ; $i++ )`, from `$i` on. -/
def scanLoop (conv : Text → Text) : Nat → List Text → ParamScan → ParamScan
  | _, [], scan => scan
  | i, token :: tokens, scan => scanLoop conv (i + 1) tokens (scanToken conv i token scan)

/-- The loop over `split(' ',$fnParams)`. -/
def scanParams (conv : Text → Text) (fnParams : Text) : ParamScan :=
  scanLoop conv 0 (split fnParams) .init

/-- `grep { $_ ne '' } @paramNames`. -/
def ParamScan.names (scan : ParamScan) : List Text := scan.paramNames.filter (· ≠ [])

/-! ### The client's script -/

/-- What the client's script appends to `$format` for a type. -/
def clientConv (token : Text) : Text :=
  (if token = text "char*" then text "%s" else []) ++ (if token = text "int" then text "%d" else [])

/-- What the heredoc of the client's script interpolates. -/
structure ClientStub where
  fnRet : Text
  fnName : Text
  fnParams : Text
  format : Text
  commaParams : Text
  retStatement : Text
  deriving DecidableEq

/-- `$commaParams`. -/
def commaParams (paramNames : List Text) : Text :=
  if paramNames.length > 1 then text "," ++ join (text ",") paramNames
  else
    match paramNames.head? with
    | some paramName => text "," ++ paramName
    | none => []

/-- `$retStatement`. -/
def retStatement (fnRet : Text) : Text :=
  if fnRet = text "char*" then text "return  get_hdr_str(result, REPLY_HDR);"
  else if fnRet = text "int" then text "return  get_hdr_int(result, REPLY_HDR);"
  else []

/-- The body of the loop of the client's script, up to the heredoc. -/
def clientStub (line : Text) : Option ClientStub := do
  let (fnRet, fnName, fnParams) ← matchPrototype line
  let scan := scanParams clientConv fnParams
  return ⟨fnRet, fnName, fnParams, scan.format, commaParams scan.names, retStatement fnRet⟩

/-- `print "$output\n"`. -/
def ClientStub.output (stub : ClientStub) : Text :=
  stub.fnRet ++ text " " ++ stub.fnName ++ text "( " ++ stub.fnParams ++
    text " )\n\x7b\n\n    msgpack_sbuffer sbuf;\n\n" ++
    text "    pack_client_request_data( &sbuf, (char*)__func__, \"" ++ stub.format ++ text "\"" ++
    stub.commaParams ++ text ");\n\n" ++
    text "    Packet pkt; pkt.buffer = sbuf.data; pkt.len = sbuf.size;\n\n" ++
    text "    Packet *result = send_and_receive( &pkt, broker_address, broker_port, " ++
    text "verbose, wait_response_port );\n\n    msgpack_sbuffer_destroy(&sbuf);\n\n    " ++
    stub.retStatement ++ text "\n\x7d\n\n"

/-! ### The server's script -/

/-- What the heredoc of the server's script interpolates. -/
structure ServerStub where
  fnName : Text
  format : Text
  paramGets : Text
  fnCall : Text
  deriving DecidableEq

/-- `$format`, by `$fnRet`. -/
def responseConv (fnRet : Text) : Text :=
  if fnRet = text "int" then text "%d" else if fnRet = text "char*" then text "%s" else []

/-- One round of the loop that builds `$paramGets`. -/
def paramGet (paramTypes paramNames : List Text) (i : Nat) : Text :=
  let paramType := paramTypes.getD i []
  let paramName := paramNames.getD i []
  if paramType = text "int" then
    text "\t\t" ++ paramType ++ text " " ++ paramName ++ text " = *(" ++ paramType ++
      text "*) params[" ++ number i ++ text "];\n"
  else
    text "\t\t" ++ paramType ++ text " " ++ paramName ++ text " = (" ++ paramType ++
      text ") params[" ++ number i ++ text "];\n"

/-- The body of the loop of the server's script, up to the heredoc. -/
def serverStub (line : Text) : Option ServerStub := do
  let (fnRet, fnName, fnParams) ← matchPrototype line
  let scan := scanParams (fun _ => []) fnParams
  return ⟨fnName, responseConv fnRet,
    (List.range scan.paramCount).flatMap (paramGet scan.paramTypes scan.names),
    fnName ++ text "(" ++ join (text ",") scan.names ++ text ")"⟩

/-- `print "$output\n"`. -/
def ServerStub.output (stub : ServerStub) : Text :=
  text "\tif (STR_Equals(operation, \"" ++ stub.fnName ++
    text "\")) \x7b\n\t\tmsgpack_sbuffer response;\n" ++ stub.paramGets ++
    text "\n\t\tPacket pkt = pack_client_response_data(&response, operation, message_id, \"" ++
    stub.format ++ text "\", " ++ stub.fnCall ++ text ");\n" ++
    text "\t\tif (verbose)\n\t\t\tunpack_data(&pkt, verbose);\n\n" ++
    text "\t\tsend_req(&pkt, broker_address, broker_port, verbose);\n" ++
    text "\t\tmsgpack_sbuffer_destroy(&response);\n\t\x7d\n\n"

end RpcBroker
