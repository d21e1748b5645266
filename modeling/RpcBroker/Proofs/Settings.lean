import RpcBroker.Model.Settings
/-!
# RpcBroker.Proofs.Settings

**Which settings are kept.** An option overwrites one array of the server or of the client
(`ServerOption.array_handler`, `ClientOption.array_handler`), so what the array is in the
end is the values of its own options, one over the other. The endpoints the model goes on
with are the ones set last exactly if those values are kept (`endpoints_iff`).
-/

namespace RpcBroker

open CLib CMemory Block

/-! ### The arrays of the server and of the client -/

/-- The arrays of the server. -/
inductive ServerField
  | port
  | address
  | brokerPort
  | brokerAddress
  deriving DecidableEq

def ServerField.room : ServerField → Nat
  | .port | .brokerPort => maxPortChars
  | .address | .brokerAddress => maxAddressChars

def ServerSettings.array (s : ServerSettings) : ServerField → Block
  | .port => s.serverDetails.port
  | .address => s.serverDetails.address
  | .brokerPort => s.brokerDetails.port
  | .brokerAddress => s.brokerDetails.address

/-- The array an option is for. -/
def ServerOption.field? : ServerOption → Option ServerField
  | .p => some .port
  | .oa => some .address
  | .bp => some .brokerPort
  | .ba => some .brokerAddress
  | .w | .v => none

/-- The values an array is set to. -/
def ServerField.values (f : ServerField) (args : List (ServerOption × CString)) :
    List CString := valuesOf ServerOption.field? f args

/-- The arrays of the client. -/
inductive ClientField
  | broker_address
  | broker_port
  | wait_response_port
  | client_address
  deriving DecidableEq

def ClientField.room : ClientField → Nat
  | .broker_port | .wait_response_port => maxPortChars
  | .broker_address | .client_address => maxAddressChars

def ClientSettings.array (s : ClientSettings) : ClientField → Block
  | .broker_address => s.broker_address
  | .broker_port => s.broker_port
  | .wait_response_port => s.wait_response_port
  | .client_address => s.client_address

/-- The array an option is for. -/
def ClientOption.field? : ClientOption → Option ClientField
  | .bp => some .broker_port
  | .ba => some .broker_address
  | .wp => some .wait_response_port
  | .oa => some .client_address
  | .v | .w => none

/-- The values an array is set to. -/
def ClientField.values (f : ClientField) (args : List (ClientOption × CString)) :
    List CString := valuesOf ClientOption.field? f args

variable (S : Stulibc) (equalsIgnoreCase : CString → CString → Bool)

/-- An option overwrites its array and no other. -/
theorem ServerOption.array_handler (o : ServerOption) (s : ServerSettings) (arg : CString)
    (f : ServerField) : (o.handler S s arg).array f =
      if o.field? = some f then (s.array f).overwrite arg else s.array f := by
  cases o <;> cases f <;> rfl

theorem ClientOption.array_handler (o : ClientOption) (s : ClientSettings) (arg : CString)
    (f : ClientField) : (o.handler S equalsIgnoreCase s arg).array f =
      if o.field? = some f then (s.array f).overwrite arg else s.array f := by
  cases o <;> cases f <;> rfl

theorem array_serverSettings (args : List (ServerOption × CString)) (f : ServerField) :
    (serverSettings S args).array f =
      (zeroed f.room).overwriteAll (f.values args) := by
  rw [serverSettings, array_foldl (ServerOption.array_handler S), ServerField.values]
  cases f <;> rfl

theorem array_clientSettings (args : List (ClientOption × CString)) (f : ClientField) :
    (clientSettings S equalsIgnoreCase args).array f =
      (zeroed f.room).overwriteAll (f.values args) := by
  rw [clientSettings, array_foldl (ClientOption.array_handler S equalsIgnoreCase), ClientField.values]
  cases f <;> rfl

/-! ### The broker -/

theorem port_brokerSettings (file : BrokerFile) :
    (brokerSettings equalsIgnoreCase file).details.port =
      (zeroed maxPortChars).strncpy (sourceOf file.port) (zeroed maxPortChars).room := by
  rw [room_zeroed]
  rfl

theorem address_brokerSettings (file : BrokerFile) :
    (brokerSettings equalsIgnoreCase file).details.address =
      (zeroed maxAddressChars).strncpy (sourceOf file.address) (zeroed maxAddressChars).room := by
  rw [room_zeroed]
  rfl

/-! ### The endpoints -/

/-- No write to the arrays fell outside, and they name this endpoint. -/
def DetailsArrays.Names (arrays : DetailsArrays) (d : Details) : Prop :=
  arrays.address.stray = false ∧ arrays.port.stray = false ∧ arrays.details? = some d

theorem DetailsArrays.names_iff {arrays : DetailsArrays} {d : Details} :
    arrays.Names d ↔ arrays.address.Holds d.address.chars ∧ arrays.port.Holds d.port.chars := by
  have hdetails : arrays.details? = some d ↔
      arrays.address.string? = some d.address ∧ arrays.port.string? = some d.port := by
    simp only [details?, Option.bind_eq_bind, Option.bind_eq_some_iff, Option.pure_def,
      Option.some.injEq]
    constructor
    · intro h
      obtain ⟨address, haddress, port, hport, rfl⟩ := h
      exact ⟨haddress, hport⟩
    · intro h
      exact ⟨_, h.1, _, h.2, rfl⟩
  rw [Names, hdetails, Holds, Holds, CString.ofBytes_chars, CString.ofBytes_chars]
  tauto

/-- The endpoint of the address and the port set last. -/
def lastEndpoint (addresses ports : List CString) : Details := ⟨last addresses, last ports⟩

/-- Both arrays keep what is set last in them. -/
def EndpointKept (addresses ports : List CString) : Prop :=
  Kept maxAddressChars addresses ∧ Kept maxPortChars ports

/-- The endpoint the client waits at. -/
def ClientSettings.client (s : ClientSettings) : DetailsArrays :=
  ⟨s.wait_response_port, s.client_address⟩

/-- The endpoint it asks at. -/
def ClientSettings.broker (s : ClientSettings) : DetailsArrays :=
  ⟨s.broker_port, s.broker_address⟩

theorem holds_serverSettings_iff (args : List (ServerOption × CString)) (f : ServerField) :
    ((serverSettings S args).array f).Holds (last (f.values args)).chars ↔
      Kept f.room (f.values args) := by
  rw [array_serverSettings]
  exact holds_overwriteAll_iff ..

theorem holds_clientSettings_iff (args : List (ClientOption × CString)) (f : ClientField) :
    ((clientSettings S equalsIgnoreCase args).array f).Holds (last (f.values args)).chars ↔
      Kept f.room (f.values args) := by
  rw [array_clientSettings]
  exact holds_overwriteAll_iff ..

/-- A configuration file sets everything once, so the server goes on with what it says if
there is room. -/
theorem serverFile_endpoints (wait verbose port address brokerAddress brokerPort : CString) :
    let s := serverSettings S (serverFile wait verbose port address brokerAddress brokerPort)
    (s.serverDetails.Names ⟨address, port⟩ ↔
      address.strlen < maxAddressChars ∧ port.strlen < maxPortChars) ∧
    (s.brokerDetails.Names ⟨brokerAddress, brokerPort⟩ ↔
      brokerAddress.strlen < maxAddressChars ∧ brokerPort.strlen < maxPortChars) := by
  intro s
  have hkept (f : ServerField) := holds_serverSettings_iff S
    (serverFile wait verbose port address brokerAddress brokerPort) f
  rw [DetailsArrays.names_iff, DetailsArrays.names_iff]
  exact ⟨and_congr ((hkept .address).trans kept_singleton) ((hkept .port).trans kept_singleton),
    and_congr ((hkept .brokerAddress).trans kept_singleton)
      ((hkept .brokerPort).trans kept_singleton)⟩

/-- So does the client. -/
theorem clientFile_endpoints (port indef verbose address brokerAddress brokerPort : CString) :
    let s := clientSettings S equalsIgnoreCase
      (clientFile port indef verbose address brokerAddress brokerPort)
    (s.client.Names ⟨address, port⟩ ↔
      address.strlen < maxAddressChars ∧ port.strlen < maxPortChars) ∧
    (s.broker.Names ⟨brokerAddress, brokerPort⟩ ↔
      brokerAddress.strlen < maxAddressChars ∧ brokerPort.strlen < maxPortChars) := by
  intro s
  have hkept (f : ClientField) := holds_clientSettings_iff S equalsIgnoreCase
    (clientFile port indef verbose address brokerAddress brokerPort) f
  rw [DetailsArrays.names_iff, DetailsArrays.names_iff]
  exact ⟨and_congr ((hkept .client_address).trans kept_singleton)
      ((hkept .wait_response_port).trans kept_singleton),
    and_congr ((hkept .broker_address).trans kept_singleton)
      ((hkept .broker_port).trans kept_singleton)⟩

/-- **Which endpoints the programs go on with.** After any options in any order, those set
last, exactly if no address and no port set before was longer and all have room for a
terminator; the broker, which copies whole arrays, needs the room only. -/
theorem endpoints_iff :
    (∀ args : List (ServerOption × CString),
      ((serverSettings S args).serverDetails.Names
          (lastEndpoint (ServerField.address.values args) (ServerField.port.values args)) ↔
        EndpointKept (ServerField.address.values args) (ServerField.port.values args)) ∧
      ((serverSettings S args).brokerDetails.Names
          (lastEndpoint (ServerField.brokerAddress.values args)
            (ServerField.brokerPort.values args)) ↔
        EndpointKept (ServerField.brokerAddress.values args)
          (ServerField.brokerPort.values args))) ∧
    (∀ args : List (ClientOption × CString),
      ((clientSettings S equalsIgnoreCase args).client.Names
          (lastEndpoint (ClientField.client_address.values args)
            (ClientField.wait_response_port.values args)) ↔
        EndpointKept (ClientField.client_address.values args)
          (ClientField.wait_response_port.values args)) ∧
      ((clientSettings S equalsIgnoreCase args).broker.Names
          (lastEndpoint (ClientField.broker_address.values args)
            (ClientField.broker_port.values args)) ↔
        EndpointKept (ClientField.broker_address.values args)
          (ClientField.broker_port.values args))) ∧
    ∀ file : BrokerFile,
      (brokerSettings equalsIgnoreCase file).details.Names ⟨file.address, file.port⟩ ↔
        file.address.strlen < maxAddressChars ∧ file.port.strlen < maxPortChars := by
  refine ⟨fun args => ?_, fun args => ?_, fun file => ?_⟩
  · rw [DetailsArrays.names_iff, DetailsArrays.names_iff]
    exact ⟨and_congr (holds_serverSettings_iff S args .address) (holds_serverSettings_iff S args .port),
      and_congr (holds_serverSettings_iff S args .brokerAddress)
        (holds_serverSettings_iff S args .brokerPort)⟩
  · rw [DetailsArrays.names_iff, DetailsArrays.names_iff]
    exact ⟨and_congr (holds_clientSettings_iff S equalsIgnoreCase args .client_address)
        (holds_clientSettings_iff S equalsIgnoreCase args .wait_response_port),
      and_congr (holds_clientSettings_iff S equalsIgnoreCase args .broker_address)
        (holds_clientSettings_iff S equalsIgnoreCase args .broker_port)⟩
  · rw [DetailsArrays.names_iff, port_brokerSettings, address_brokerSettings, holds_strncpy_iff,
      holds_strncpy_iff, room_zeroed, room_zeroed]
    exact and_congr (and_iff_right rfl) (and_iff_right rfl)

end RpcBroker
