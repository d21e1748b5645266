import RpcBroker.Model.Interface
import RpcBroker.Model.ServerBlock
/-!
# RpcBroker.Model.Proxies

**The files the generators write**: `client-proxy.c` and `server-proxy.c`, as the
scripts print them from the text of `server_interface.h`. A script reads the interface
line by line, prints a stub for each line its pattern matches, and nothing for the
others.

`runServerProxy` is what the printed `call_marshelResponse_send` does: its blocks, one
after the other.
-/

namespace RpcBroker

open CLib Msgpack Perl

/-! ### The interface -/

/-- A line of an interface: a prototype, or a text the pattern cannot match because it
has no `);`. -/
inductive InterfaceLine
  | prototype (proto : Prototype)
  | other (line : Text) (oneLine : 10 ∉ line) (unmatched : ¬ text ");" <:+: line)

def InterfaceLine.chars : InterfaceLine → Text
  | .prototype proto => proto.line
  | .other line _ _ => line

/-- The file; its last line may lack the newline. -/
def interfaceText : List InterfaceLine → Bool → Text
  | [], _ => []
  | [line], eol => line.chars ++ lineEnd eol
  | line :: next :: lines, eol => line.chars ++ text "\n" ++ interfaceText (next :: lines) eol

/-- The prototypes of an interface, in order. -/
def prototypes : List InterfaceLine → List Prototype
  | [] => []
  | .prototype proto :: lines => proto :: prototypes lines
  | .other _ _ _ :: lines => prototypes lines

/-- Has the text a `);`? -/
def hasEnd : Text → Bool
  | c :: d :: s => (c == 41 && d == 59) || hasEnd (d :: s)
  | _ => false

theorem hasEnd_of_occurs {s : Text} (h : text ");" <:+: s) : hasEnd s = true := by
  obtain ⟨front, back, rfl⟩ := h
  induction front with
  | nil => rfl
  | cons c front ih =>
      obtain ⟨d, rest, hrest⟩ : ∃ d rest, front ++ text ");" ++ back = d :: rest := by
        cases front with
        | nil => exact ⟨41, 59 :: back, rfl⟩
        | cons d front => exact ⟨d, _, rfl⟩
      rw [List.cons_append, List.cons_append, hrest, hasEnd, ← hrest, ih, Bool.or_true]

/-- A line that holds no prototype, as far as it can be computed. -/
def isOtherLine (line : Text) : Bool := line.all (· != 10) && !hasEnd line

theorem oneLine_of_isOtherLine {line : Text} (h : isOtherLine line = true) : 10 ∉ line := by
  rw [isOtherLine, Bool.and_eq_true] at h
  exact fun hmem => absurd (forall_of_all h.1 10 hmem) (by decide)

theorem unmatched_of_isOtherLine {line : Text} (h : isOtherLine line = true) :
    ¬ text ");" <:+: line := by
  rw [isOtherLine, Bool.and_eq_true, Bool.not_eq_true'] at h
  exact fun hinfix => absurd (hasEnd_of_occurs hinfix) (by rw [h.2]; decide)

def otherLine (line : String) (h : isOtherLine (text line) = true := by decide) : InterfaceLine :=
  .other (text line) (oneLine_of_isOtherLine h) (unmatched_of_isOtherLine h)

open ServerInterface in
/-- `server_interface.h`. -/
def interfaceFile : List InterfaceLine :=
  [otherLine "// Defines the operations that the client can call and that the server knows how to service.",
    otherLine "// This is used by both the client and server.",
    otherLine "",
    otherLine "#ifndef SERVER_INTERFACE_H",
    otherLine "#define SERVER_INTERFACE_H",
    otherLine "",
    otherLine "/**",
    otherLine " * @brief Gets the server's date",
    otherLine " * ",
    otherLine " * @return char* the servers date in string format",
    otherLine " */",
    otherLine "",
    .prototype getServerDateProto,
    otherLine "/**",
    otherLine " * @brief Adds two numbers up",
    otherLine " * ",
    otherLine " * @param one number one",
    otherLine " * @param two number two",
    otherLine " * @return int sum of the two numbers",
    otherLine " */",
    .prototype addProto,
    otherLine "/**",
    otherLine " * @brief Returns the same output as the input",
    otherLine " * ",
    otherLine " * @param echo input",
    otherLine " * @return char* output",
    otherLine " */",
    .prototype echoProto,
    otherLine "/**",
    otherLine " * @brief Gets the name of the broker",
    otherLine " * ",
    otherLine " * @return char* the name of the broker",
    otherLine " */",
    .prototype getBrokerNameProto,
    otherLine "",
    .prototype sayHelloProto,
    otherLine "",
    .prototype sayDogProto,
    otherLine "",
    .prototype diffirenceProto,
    otherLine "",
    otherLine "#endif"]

/-! ### The scripts -/

/-- `$beginning` of the client's script. -/
def clientBeginning : Text :=
  text "#include \"server_interface.h\"\n#include \"common.h\"\n#include <stdio.h>\n" ++
    text "#include <stdlib.h>\n#include <string.h>\n#include <msgpack.h>\n" ++
    text "#include <stulibc.h>\n#include <stdarg.h>\n\n" ++
    text "extern char broker_address[MAX_ADDRESS_CHARS];\n" ++
    text "extern char broker_port[MAX_PORT_CHARS];\nextern bool verbose;\n" ++
    text "extern char wait_response_port[MAX_PORT_CHARS];\n"

/-- `$beginning` of the server's script. -/
def serverBeginning : Text :=
  text "#include <stulibc.h>\n#include \"common.h\"\n#include \"server_interface.h\"\n\n/***\n" ++
    text " * Call server function, marshal response and send back to broker\n" ++
    text " * @param message_id incomming message id generated by broker\n" ++
    text " * @param operation operation to be called\n" ++
    text " * @param broker_address where the response should be sent (the broker)\n" ++
    text " * @param broker_port which port to send the response to(on the broker)\n" ++
    text " * @param verbose indication if we should say stuff about what we're doing\n" ++
    text " * @param params  array of pointers to values that represent the arguments to the function\n" ++
    text " */\nvoid call_marshelResponse_send(int message_id, char* operation, " ++
    text "char* broker_address, char* broker_port, bool verbose, char** params) \x7b\n\n"

/-- What the client's script prints for a line. -/
def clientPrints (line : Text) : Text := ((clientStub line).map ClientStub.output).getD []

/-- What the server's script prints for a line. -/
def serverPrints (line : Text) : Text := ((serverStub line).map ServerStub.output).getD []

/-- `client-proxy.c`. -/
def clientProxy (interface : Text) : Text :=
  clientBeginning ++ (readLines interface).flatMap clientPrints

/-- `server-proxy.c`. -/
def serverProxy (interface : Text) : Text :=
  serverBeginning ++ (readLines interface).flatMap serverPrints ++ text "\x7d\n"

/-! ### What is printed -/

/-- The client's stub for a prototype. -/
def Prototype.stub (proto : Prototype) : ClientStub where
  fnRet := proto.ret.text.chars
  fnName := proto.name.chars
  fnParams := proto.paramsText
  format := (stubFormat (proto.params.map declared)).chars
  commaParams := proto.params.flatMap fun param => text "," ++ param.2.chars
  retStatement := retStatement proto.ret.text.chars

/-- The server's dispatcher for prototypes, as a text. -/
def dispatcherText (protos : List Prototype) : Text :=
  serverBeginning ++ (protos.flatMap fun proto => blockText (serverBlock proto) ++ text "\n") ++
    text "\x7d\n"

/-- The server's dispatcher, run: what its blocks send. -/
def runServerProxy (E : Libs) (protos : List Prototype) (result : CString → List Arg → Arg)
    (message_id : Int32) (operation : CString) (broker : Details) (verbose : Bool)
    (params : List ParamPtr) : Option (List (List Token × Location)) := do
  let sents ← protos.mapM fun proto =>
    runServerBlock E proto (result (.ofBytes proto.name.chars)) message_id operation broker verbose
      params
  return sents.flatten

end RpcBroker
