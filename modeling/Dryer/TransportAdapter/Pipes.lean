import Mathlib.Logic.Function.Basic
import Dryer.TransportAdapter.StreamReader

/-!
# Connected transports

A pair of connected endpoints, each with its reading side as the stream reader sees it. Bytes
written at one endpoint are read at the other, in order. The in-memory pair shares two byte
queues; the channel pair sends whole chunks and keeps what a short read left over.
-/
namespace Dryer.TransportAdapter
open Library

inductive Endpoint where
  | endpoint1
  | endpoint2
  deriving DecidableEq

namespace Endpoint

def peer : Endpoint → Endpoint
  | .endpoint1 => .endpoint2
  | .endpoint2 => .endpoint1

@[simp] theorem peer_peer (endpoint : Endpoint) : endpoint.peer.peer = endpoint := by
  cases endpoint <;> rfl

@[simp] theorem peer_ne (endpoint : Endpoint) : endpoint.peer ≠ endpoint := by
  cases endpoint <;> decide

@[simp] theorem ne_peer (endpoint : Endpoint) : endpoint ≠ endpoint.peer := by
  cases endpoint <;> decide

theorem eq_or_peer_eq (endpoint other : Endpoint) : endpoint = other ∨ endpoint.peer = other := by
  cases endpoint <;> cases other <;> simp [peer]

end Endpoint

/-- Two connected endpoints of a byte stream, with what their owners rely on. -/
structure Duplex (τ ε : Type) where
  pair : τ
  writeBytes : Endpoint → List UInt8 → τ → Except ε Unit × τ
  stream : Endpoint → StreamTransport τ ε
  /-- One endpoint goes out of scope. -/
  hangUp : Endpoint → τ → τ
  /-- The bytes on their way to an endpoint. -/
  inFlight : Endpoint → τ → List UInt8
  /-- How many reads an endpoint needs at most to have all of them. -/
  readsLeft : Endpoint → τ → Nat
  readsLeft_pair : ∀ endpoint, readsLeft endpoint pair = 0
  inFlight_of_readsLeft : ∀ {endpoint s}, readsLeft endpoint s = 0 → inFlight endpoint s = []
  write_ok : ∀ {endpoint data s s'}, writeBytes endpoint data s = (.ok (), s') →
    inFlight endpoint.peer s' = inFlight endpoint.peer s ++ data ∧
      inFlight endpoint s' = inFlight endpoint s
  write_error : ∀ {endpoint data s s' e}, writeBytes endpoint data s = (.error e, s') → s' = s
  read_ok : ∀ {endpoint space s bytes s'}, (stream endpoint).readBytes space s = (.ok bytes, s') →
    inFlight endpoint s = bytes.val ++ inFlight endpoint s' ∧
      inFlight endpoint.peer s' = inFlight endpoint.peer s ∧
      (0 < space → readsLeft endpoint s' ≤ readsLeft endpoint s - 1)
  /-- A read fails only once there is nothing left to read. -/
  read_error : ∀ {endpoint space s e s'}, (stream endpoint).readBytes space s = (.error e, s') →
    s' = s ∧ readsLeft endpoint s = 0
  inFlight_hangUp : ∀ {endpoint reader s},
    inFlight reader (hangUp endpoint s) = inFlight reader s
  readsLeft_hangUp : ∀ {endpoint reader s},
    readsLeft reader (hangUp endpoint s) = readsLeft reader s

/-! ## In memory -/

inductive MemoryTransportError where
  | closed
  deriving DecidableEq

/-- The two shared queues, each under the endpoint that reads it. -/
structure MemoryTransport where
  incoming : Endpoint → List UInt8

namespace MemoryTransport

def pair : MemoryTransport := ⟨fun _ => []⟩

/-- The queue that an endpoint writes is the one that its peer reads. -/
def outgoing (transport : MemoryTransport) (endpoint : Endpoint) : List UInt8 :=
  transport.incoming endpoint.peer

def writeBytes (endpoint : Endpoint) (data : List UInt8) (transport : MemoryTransport) :
    Except MemoryTransportError Unit × MemoryTransport :=
  (.ok (), ⟨Function.update transport.incoming endpoint.peer
    (transport.outgoing endpoint ++ data)⟩)

def readBytes (endpoint : Endpoint) (space : Nat) (transport : MemoryTransport) :
    Except MemoryTransportError { bytes : List UInt8 // bytes.length ≤ space } ×
      MemoryTransport :=
  let inc := transport.incoming endpoint
  (.ok ⟨inc.take space, List.length_take_le space inc⟩,
    ⟨Function.update transport.incoming endpoint (inc.drop space)⟩)

/-- The pair goes on when an endpoint goes away: the queues are shared. -/
def duplex : Duplex MemoryTransport MemoryTransportError where
  pair
  writeBytes
  stream endpoint := ⟨readBytes endpoint⟩
  hangUp _ transport := transport
  inFlight endpoint transport := transport.incoming endpoint
  readsLeft endpoint transport := (transport.incoming endpoint).length
  readsLeft_pair _ := rfl
  inFlight_of_readsLeft := List.length_eq_zero_iff.mp
  write_ok := by
    intro endpoint data s s' h
    cases h
    simp [outgoing]
  write_error := nofun
  read_ok := by
    intro endpoint space s bytes s' h
    cases h
    refine ⟨by simp, by simp, fun hspace => ?_⟩
    simp only [Function.update_self, List.length_drop]
    omega
  read_error := nofun
  inFlight_hangUp := rfl
  readsLeft_hangUp := rfl

end MemoryTransport

/-! ## Over a channel -/

inductive ChannelTransportError where
  | sendFailed
  | disconnected
  deriving DecidableEq

/-- Two channels of chunks, each under the endpoint that receives from it. -/
structure ChannelTransport where
  receiver : Endpoint → List (List UInt8)
  readBuf : Endpoint → List UInt8
  dropped : Endpoint → Bool

namespace ChannelTransport

def pair : ChannelTransport where
  receiver _ := []
  readBuf _ := []
  dropped _ := false

def writeBytes (endpoint : Endpoint) (data : List UInt8) (transport : ChannelTransport) :
    Except ChannelTransportError Unit × ChannelTransport :=
  if transport.dropped endpoint.peer then (.error .sendFailed, transport)
  else (.ok (), { transport with
    receiver := Function.update transport.receiver endpoint.peer
      (transport.receiver endpoint.peer ++ [data]) })

/-- What a read finds in front of it: the rest of the last chunk, or the next one. -/
def refill (endpoint : Endpoint) (transport : ChannelTransport) :
    Except ChannelTransportError (Option ChannelTransport) :=
  if transport.readBuf endpoint = [] then
    match transport.receiver endpoint with
    | chunk :: rest => .ok (some { transport with
        receiver := Function.update transport.receiver endpoint rest
        readBuf := Function.update transport.readBuf endpoint chunk })
    | [] => if transport.dropped endpoint.peer then .error .disconnected else .ok none
  else .ok (some transport)

def readBytes (endpoint : Endpoint) (space : Nat) (transport : ChannelTransport) :
    Except ChannelTransportError { bytes : List UInt8 // bytes.length ≤ space } ×
      ChannelTransport :=
  match transport.refill endpoint with
  | .error e => (.error e, transport)
  | .ok none => (.ok ⟨[], Nat.zero_le space⟩, transport)
  | .ok (some filled) =>
    let buffered := filled.readBuf endpoint
    (.ok ⟨buffered.take space, List.length_take_le space buffered⟩,
      { filled with readBuf := Function.update filled.readBuf endpoint (buffered.drop space) })

def hangUp (endpoint : Endpoint) (transport : ChannelTransport) : ChannelTransport :=
  { transport with dropped := Function.update transport.dropped endpoint true }

def inFlight (endpoint : Endpoint) (transport : ChannelTransport) : List UInt8 :=
  transport.readBuf endpoint ++ (transport.receiver endpoint).flatten

/-- A chunk may be empty, and takes a read all the same. -/
def readsLeft (endpoint : Endpoint) (transport : ChannelTransport) : Nat :=
  (transport.readBuf endpoint).length +
    ((transport.receiver endpoint).map fun chunk => chunk.length + 1).sum

theorem inFlight_of_readsLeft {endpoint : Endpoint} {transport : ChannelTransport}
    (h : transport.readsLeft endpoint = 0) : transport.inFlight endpoint = [] := by
  obtain ⟨hbuf, hreceiver⟩ := Nat.add_eq_zero_iff.mp h
  have hchunks : transport.receiver endpoint = [] := by
    cases hchunks : transport.receiver endpoint with
    | nil => rfl
    | cons chunk rest =>
      rw [hchunks, List.map_cons, List.sum_cons] at hreceiver
      omega
  rw [inFlight, List.length_eq_zero_iff.mp hbuf, hchunks]
  rfl

/-- Taking a chunk over into the read buffer moves no byte and costs a read. -/
theorem refill_ok {endpoint : Endpoint} {transport filled : ChannelTransport}
    (h : transport.refill endpoint = .ok (some filled)) :
    filled.inFlight endpoint = transport.inFlight endpoint ∧
      filled.inFlight endpoint.peer = transport.inFlight endpoint.peer ∧
      filled.readsLeft endpoint ≤ transport.readsLeft endpoint ∧
      (filled.readBuf endpoint = [] →
        filled.readsLeft endpoint < transport.readsLeft endpoint) := by
  rw [refill] at h
  split at h
  · rename_i hempty
    split at h
    · rename_i chunk rest hchunks
      cases h
      simp [inFlight, readsLeft, hempty, hchunks]
    · split at h <;> cases h
  · rename_i hsome
    cases h
    exact ⟨rfl, rfl, Nat.le_refl _, fun hempty => absurd hempty hsome⟩

theorem refill_rest {endpoint : Endpoint} {transport : ChannelTransport}
    (h : ∀ filled, transport.refill endpoint ≠ .ok (some filled)) :
    transport.readsLeft endpoint = 0 := by
  by_cases hempty : transport.readBuf endpoint = []
  · cases hchunks : transport.receiver endpoint with
    | nil => simp [readsLeft, hempty, hchunks]
    | cons chunk rest => simp [refill, hempty, hchunks] at h
  · simp [refill, hempty] at h

def duplex : Duplex ChannelTransport ChannelTransportError where
  pair
  writeBytes
  stream endpoint := ⟨readBytes endpoint⟩
  hangUp
  inFlight
  readsLeft
  readsLeft_pair _ := rfl
  inFlight_of_readsLeft
  write_ok := by
    intro endpoint data s s' h
    rw [writeBytes] at h
    split at h
    · cases h
    · cases h
      simp [inFlight]
  write_error := by
    intro endpoint data s s' e h
    rw [writeBytes] at h
    split at h <;> cases h
    rfl
  read_ok := by
    intro endpoint space s bytes s' h
    simp only [readBytes] at h
    split at h
    · cases h
    · rename_i hrefill
      cases h
      have hleft := refill_rest (fun filled => by rw [hrefill]; nofun)
      exact ⟨rfl, rfl, fun _ => by omega⟩
    · rename_i filled hrefill
      cases h
      obtain ⟨hmine, hpeer, hle, hlt⟩ := refill_ok hrefill
      refine ⟨?_, ?_, fun hspace => ?_⟩
      · rw [← hmine]
        simp only [inFlight, Function.update_self]
        rw [← List.append_assoc, List.take_append_drop]
      · rw [← hpeer]
        simp [inFlight]
      · by_cases hempty : filled.readBuf endpoint = []
        · have hless := hlt hempty
          simp only [readsLeft, Function.update_self, hempty, List.drop_nil] at hless ⊢
          omega
        · have hpos := List.length_pos_iff.mpr hempty
          simp only [readsLeft, Function.update_self, List.length_drop] at hle ⊢
          omega
  read_error := by
    intro endpoint space s e s' h
    simp only [readBytes] at h
    split at h
    · rename_i hrefill
      cases h
      exact ⟨rfl, refill_rest (fun filled => by rw [hrefill]; nofun)⟩
    · cases h
    · cases h
  inFlight_hangUp := rfl
  readsLeft_hangUp := rfl

end ChannelTransport
end Dryer.TransportAdapter
