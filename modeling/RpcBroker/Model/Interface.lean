import RpcBroker.Model.Generators
import RpcBroker.Model.System
/-!
# RpcBroker.Model.Interface

**The interface the programs are built with**: the prototypes of
`server_interface.h`, the functions behind them and the table `services`
(`server/server_interface.c`), and the calls of the client's `main`
(`client/client.c`).

Two functions are made with string functions of `stulibc`; what these give is a
parameter. `int` arithmetic wraps around where C leaves it undefined.
-/

namespace RpcBroker

open CLib Perl

/-- A prototype, as the server's stubs use it. -/
def Prototype.proto (proto : Prototype) : Proto :=
  ⟨proto.ret, .ofBytes proto.name.chars, proto.params.map Prod.fst⟩

namespace ServerInterface

/-! ### Prototypes -/

def getServerDateProto : Prototype := ⟨.charPtr, .ofText (text "getServerDate") (by decide), []⟩

def addProto : Prototype :=
  ⟨.int, .ofText (text "add") (by decide),
    [(.int, .ofText (text "one") (by decide)), (.int, .ofText (text "two") (by decide))]⟩

def echoProto : Prototype :=
  ⟨.charPtr, .ofText (text "echo") (by decide), [(.charPtr, .ofText (text "message") (by decide))]⟩

def getBrokerNameProto : Prototype := ⟨.charPtr, .ofText (text "getBrokerName") (by decide), []⟩

def sayHelloProto : Prototype :=
  ⟨.charPtr, .ofText (text "sayHello") (by decide),
    [(.int, .ofText (text "age") (by decide)), (.charPtr, .ofText (text "name") (by decide))]⟩

def sayDogProto : Prototype :=
  ⟨.charPtr, .ofText (text "sayDog") (by decide),
    [(.charPtr, .ofText (text "one") (by decide)), (.charPtr, .ofText (text "two") (by decide)),
      (.charPtr, .ofText (text "three") (by decide)),
      (.charPtr, .ofText (text "four") (by decide))]⟩

def diffirenceProto : Prototype :=
  ⟨.int, .ofText (text "diffirence") (by decide),
    [(.int, .ofText (text "one") (by decide)), (.int, .ofText (text "two") (by decide))]⟩

/-- The prototypes of `server_interface.h`, in its order. -/
def serverInterface : List Prototype :=
  [getServerDateProto, addProto, echoProto, getBrokerNameProto, sayHelloProto,
    sayDogProto, diffirenceProto]

/-! ### Functions -/

/-- The string functions the interface uses: `STR_Reverse`, which leaves its result in
the string it is given, and `STR_Join`. -/
structure StringLibrary where
  strReverse : CString → CString
  strJoin : CString → CString → CString

variable (L : StringLibrary)

def getServerDate : CString := .lit "20 jan 2012"

def getBrokerName : CString := .lit "broker v1"

def echo (data : CString) : CString := L.strReverse data

def add (one two : Int32) : Int32 := one + two

def sayHello (_age : Int32) (_name : CString) : CString := .lit "sayHello()"

def sayDog (one two three four : CString) : CString :=
  let first_part := L.strJoin one two
  let second_part := L.strJoin three four
  L.strJoin first_part second_part

def diffirence (one two : Int32) : Int32 := two - one

/-- `services`, up to its NULL. -/
def services : List CString :=
  [.lit "getBrokerName", .lit "echo", .lit "add", .lit "sayHello", .lit "getServerDate",
    .lit "sayDog", .lit "diffirence"]

/-- A call of one of the functions by its name. Nothing is said of calls that do not
compile. -/
def interfaceResult (name : CString) (args : List Arg) : Arg :=
  if name = .lit "getServerDate" then .str getServerDate
  else if name = .lit "getBrokerName" then .str getBrokerName
  else if name = .lit "sayHello" then
    match args with
    | [.int age, .str name] => .str (sayHello age name)
    | _ => .str .empty
  else if name = .lit "echo" then
    match args with
    | [.str data] => .str (echo L data)
    | _ => .str .empty
  else if name = .lit "sayDog" then
    match args with
    | [.str one, .str two, .str three, .str four] => .str (sayDog L one two three four)
    | _ => .str .empty
  else if name = .lit "add" then
    match args with
    | [.int one, .int two] => .int (add one two)
    | _ => .int 0
  else
    match args with
    | [.int one, .int two] => .int (diffirence one two)
    | _ => .int 0

theorem distinct_serverInterface :
    ((serverInterface.map Prototype.proto).map Proto.name).Nodup := by decide

/-- The server. -/
def serverProgram : ServerProgram where
  protos := serverInterface.map Prototype.proto
  distinct := distinct_serverInterface
  result := interfaceResult L

theorem named_services : ∀ s ∈ services, s ≠ .empty := by decide

/-- The server with its table. -/
def serverNode : ServerNode := ⟨serverProgram L, services, named_services⟩

end ServerInterface

/-! ### The client -/

/-- A call of a stub, with what `rand()` gives in it. -/
structure StubCall where
  rand : Int32
  proto : Prototype
  args : List Arg

/-- The action of calling it at a client. -/
def StubCall.action (call : StubCall) (client : Details) : Action :=
  .call client call.rand (.ofBytes call.proto.name.chars) (call.proto.params.map declared)
    call.proto.ret call.args

open ServerInterface in
/-- The calls of the client's `main`, with the numbers `rand()` gives in turn. -/
def mainCalls (rand : Nat → Int32) : List StubCall :=
  [⟨rand 0, getServerDateProto, []⟩,
    ⟨rand 1, echoProto, [.str (.lit "Bruce Mathews")]⟩,
    ⟨rand 2, getBrokerNameProto, []⟩,
    ⟨rand 3, addProto, [.int 20, .int 199]⟩,
    ⟨rand 4, sayHelloProto, [.int 20, .str (.lit "Stuart")]⟩,
    ⟨rand 5, sayDogProto, [.str (.lit "labrador_"), .str (.lit "alsatian_"),
      .str (.lit "bulldog_"), .str (.lit "spaniel")]⟩,
    ⟨rand 6, diffirenceProto, [.int 200, .int 578]⟩]

end RpcBroker
