import RpcBroker.Lib.Overwrite
import RpcBroker.Model.Protocol
/-!
# RpcBroker.Model.Settings

**Reading the settings**: the handlers of the server (`server.c`) and of the client
(`client.c`), called for the options of a command line in their order or once each for
what a configuration file says, and the functions with which the broker (`broker.c`)
reads its file.

The addresses and ports are arrays of fixed size. The handlers of the server and the
client copy as many characters as the value has, the broker as many as the array has.
Parsing a command line or a file is left to the library, and so is what becomes of an
empty value: `CHECK_STRING` lets every other value through to the copy.
-/

namespace RpcBroker

open CLib CMemory

/-- `MAX_PORT_CHARS`. -/
def maxPortChars : Nat := 20

/-- `MAX_ADDRESS_CHARS`. -/
def maxAddressChars : Nat := 29

/-- `Details`, as its two arrays. -/
structure DetailsArrays where
  port : Block := .zeroed maxPortChars
  address : Block := .zeroed maxAddressChars

/-- The endpoint the arrays name, if both are terminated. -/
def DetailsArrays.details? (d : DetailsArrays) : Option Details := do
  return ⟨← d.address.string?, ← d.port.string?⟩

/-! ### The server -/

/-- The variables of the server. -/
structure ServerSettings where
  brokerDetails : DetailsArrays := {}
  serverDetails : DetailsArrays := {}
  waitIndef : Bool := false
  verbose : Bool := false

namespace ServerSettings

variable (s : ServerSettings) (arg : CString)

def setBrokerPort : ServerSettings :=
  { s with brokerDetails.port := s.brokerDetails.port.overwrite arg }

def setPortNumber : ServerSettings :=
  { s with serverDetails.port := s.serverDetails.port.overwrite arg }

def setBrokerAddress : ServerSettings :=
  { s with brokerDetails.address := s.brokerDetails.address.overwrite arg }

def setOurAddress : ServerSettings :=
  { s with serverDetails.address := s.serverDetails.address.overwrite arg }

/-- Whatever the value is. -/
def setWaitIndef (_arg : CString) : ServerSettings := { s with waitIndef := true }

def setBeVerbose (S : Stulibc) : ServerSettings :=
  { s with verbose := S.strEquals (.str arg) (.str (.lit "true")) ||
      S.strEquals (.str arg) (.str (.lit "1")) }

end ServerSettings

/-- The options of the server's command line. -/
inductive ServerOption
  | p
  | w
  | ba
  | bp
  | v
  | oa

/-- What `CMD_CreateNewArgument` is given for an option. -/
def ServerOption.handler (S : Stulibc) :
    ServerOption → ServerSettings → CString → ServerSettings
  | .p => .setPortNumber
  | .w => .setWaitIndef
  | .ba => .setBrokerAddress
  | .bp => .setBrokerPort
  | .v => fun s arg => s.setBeVerbose arg S
  | .oa => .setOurAddress

/-- The server after these options. -/
def serverSettings (S : Stulibc) (args : List (ServerOption × CString)) : ServerSettings :=
  args.foldl (fun s arg => arg.1.handler S s arg.2) {}

/-- The calls of the handlers for a configuration file. -/
def serverFile (wait verbose port address brokerAddress brokerPort : CString) :
    List (ServerOption × CString) :=
  [(.w, wait), (.v, verbose), (.p, port), (.oa, address), (.ba, brokerAddress),
    (.bp, brokerPort)]

/-! ### The client -/

/-- The variables of the client. -/
structure ClientSettings where
  broker_address : Block := .zeroed maxAddressChars
  broker_port : Block := .zeroed maxPortChars
  wait_response_port : Block := .zeroed maxPortChars
  wait_response_indef : Bool := false
  client_address : Block := .zeroed maxAddressChars
  verbose : Bool := false

namespace ClientSettings

variable (s : ClientSettings) (arg : CString)

def setWaitResponsePort : ClientSettings :=
  { s with wait_response_port := s.wait_response_port.overwrite arg }

def setBrokerPortNumber : ClientSettings :=
  { s with broker_port := s.broker_port.overwrite arg }

def setBrokerAddress : ClientSettings :=
  { s with broker_address := s.broker_address.overwrite arg }

def setOurAddress : ClientSettings :=
  { s with client_address := s.client_address.overwrite arg }

/-- Whatever the value is. -/
def setWaitResponseIndef (_arg : CString) : ClientSettings :=
  { s with wait_response_indef := true }

/-- `equalsIgnoreCase` is `STR_EqualsIgnoreCase`. -/
def setVerbose (S : Stulibc) (equalsIgnoreCase : CString → CString → Bool) : ClientSettings :=
  { s with verbose := equalsIgnoreCase arg (.lit "true") ||
      S.strEquals (.str arg) (.str (.lit "1")) }

end ClientSettings

/-- The options of the client's command line. -/
inductive ClientOption
  | bp
  | ba
  | v
  | wp
  | w
  | oa

/-- What `CMD_CreateNewArgument` is given for an option. -/
def ClientOption.handler (S : Stulibc) (equalsIgnoreCase : CString → CString → Bool) :
    ClientOption → ClientSettings → CString → ClientSettings
  | .bp => .setBrokerPortNumber
  | .ba => .setBrokerAddress
  | .v => fun s arg => s.setVerbose arg S equalsIgnoreCase
  | .wp => .setWaitResponsePort
  | .w => .setWaitResponseIndef
  | .oa => .setOurAddress

/-- `setupCmd`: the client after these options. -/
def clientSettings (S : Stulibc) (equalsIgnoreCase : CString → CString → Bool)
    (args : List (ClientOption × CString)) : ClientSettings :=
  args.foldl (fun s arg => arg.1.handler S equalsIgnoreCase s arg.2) {}

/-- The calls of the handlers for a configuration file. -/
def clientFile (port indef verbose address brokerAddress brokerPort : CString) :
    List (ClientOption × CString) :=
  [(.wp, port), (.w, indef), (.v, verbose), (.oa, address), (.ba, brokerAddress),
    (.bp, brokerPort)]

/-! ### The broker -/

/-- What the broker reads of its configuration file. -/
structure BrokerFile where
  verbose : CString
  wait : CString
  port : CString
  address : CString

/-- The variables of the broker. -/
structure BrokerSettings where
  verbose : Bool := false
  waitIndef : Bool := false
  details : DetailsArrays := {}

section Broker

variable (equalsIgnoreCase : CString → CString → Bool)

def isTrueString (arg : CString) : Bool :=
  equalsIgnoreCase arg (.lit "1") || equalsIgnoreCase arg (.lit "true")

namespace BrokerSettings

variable (s : BrokerSettings) (file : BrokerFile)

def getVerboseSetting : BrokerSettings :=
  { s with verbose := isTrueString equalsIgnoreCase file.verbose }

def getWaitSetting : BrokerSettings :=
  { s with waitIndef := isTrueString equalsIgnoreCase file.wait }

/-- The port, in spite of its name. -/
def getAddressSetting : BrokerSettings :=
  { s with details.port := s.details.port.strncpy (Block.sourceOf file.port) maxPortChars }

/-- The address. -/
def getPortSetting : BrokerSettings :=
  { s with details.address :=
      s.details.address.strncpy (Block.sourceOf file.address) maxAddressChars }

end BrokerSettings

/-- The broker after its configuration file. -/
def brokerSettings (file : BrokerFile) : BrokerSettings :=
  let s : BrokerSettings := {}
  let s := s.getVerboseSetting equalsIgnoreCase file
  let s := s.getWaitSetting equalsIgnoreCase file
  let s := s.getAddressSetting file
  s.getPortSetting file

end Broker

end RpcBroker
