import Mathlib.Algebra.Group.Nat.Defs
import HttpdProxy.Utils.Bytes

/-!
# `metrics.c` and the run-time settings

The five counters are 64 bits wide and stop at their maximum; the decrement
of `unregister_connection` stops at zero.
-/

namespace HttpdProxy

structure Metrics where
  historicalConnections : UInt64
  concurrentConnections : UInt64
  bytesReceived : UInt64
  bytesSent : UInt64
  failedConnections : UInt64
  deriving DecidableEq, Repr

def uint64Max : UInt64 := 0xFFFFFFFFFFFFFFFF

/-- `init_metrics`. -/
def initMetrics : Metrics where
  historicalConnections := 0
  concurrentConnections := 0
  bytesReceived := 0
  bytesSent := 0
  failedConnections := 0

def increaseBytesReceived (bytes : Nat) (m : Metrics) : Metrics :=
  if m.bytesReceived < uint64Max then
    { m with bytesReceived := m.bytesReceived + bytes.toUInt64 }
  else m

def increaseBytesSent (bytes : Nat) (m : Metrics) : Metrics :=
  if m.bytesSent < uint64Max then { m with bytesSent := m.bytesSent + bytes.toUInt64 }
  else m

def increaseFailedConnections (m : Metrics) : Metrics :=
  if m.failedConnections < uint64Max then
    { m with failedConnections := m.failedConnections + 1 }
  else m

def registerNewConnection (m : Metrics) : Metrics :=
  let m :=
    if m.historicalConnections < uint64Max then
      { m with historicalConnections := m.historicalConnections + 1 }
    else m
  if m.concurrentConnections < uint64Max then
    { m with concurrentConnections := m.concurrentConnections + 1 }
  else m

def unregisterConnection (m : Metrics) : Metrics :=
  if m.concurrentConnections > 0 then
    { m with concurrentConnections := m.concurrentConnections - 1 }
  else m

/-- `get_total_bytes_transferred`. -/
def totalBytesTransferred (m : Metrics) : UInt64 := m.bytesReceived + m.bytesSent

/-! What the two connection counters do, as numbers. -/

@[simp] theorem registerNewConnection_concurrent {m : Metrics}
    (h : m.concurrentConnections.toNat < 2 ^ 64 - 1) :
    (registerNewConnection m).concurrentConnections.toNat
      = m.concurrentConnections.toNat + 1 := by
  have hlt : m.concurrentConnections < uint64Max := by
    rw [UInt64.lt_iff_toNat_lt]
    exact h
  have h1 : (m.concurrentConnections + 1).toNat = m.concurrentConnections.toNat + 1 := by
    rw [UInt64.toNat_add, UInt64.toNat_one]
    omega
  unfold registerNewConnection
  by_cases hh : m.historicalConnections < uint64Max <;> simp [hh, hlt, h1]

@[simp] theorem unregisterConnection_concurrent (m : Metrics) :
    (unregisterConnection m).concurrentConnections.toNat
      = m.concurrentConnections.toNat - 1 := by
  unfold unregisterConnection
  split
  · next h =>
      have hpos : 1 ≤ m.concurrentConnections := by
        rw [UInt64.le_iff_toNat_le, UInt64.toNat_one]
        exact UInt64.lt_iff_toNat_lt.mp h
      rw [UInt64.toNat_sub_of_le _ _ hpos, UInt64.toNat_one]
  · next h =>
      have hz : m.concurrentConnections.toNat = 0 := by
        have hn : ¬ (0 : UInt64).toNat < m.concurrentConnections.toNat :=
          fun hlt => h (UInt64.lt_iff_toNat_lt.mpr hlt)
        rw [UInt64.toNat_zero] at hn
        omega
      omega

@[simp] theorem increaseBytesReceived_concurrent (n : Nat) (m : Metrics) :
    (increaseBytesReceived n m).concurrentConnections = m.concurrentConnections := by
  unfold increaseBytesReceived
  split <;> rfl

@[simp] theorem increaseBytesSent_concurrent (n : Nat) (m : Metrics) :
    (increaseBytesSent n m).concurrentConnections = m.concurrentConnections := by
  unfold increaseBytesSent
  split <;> rfl

@[simp] theorem increaseFailedConnections_concurrent (m : Metrics) :
    (increaseFailedConnections m).concurrentConnections = m.concurrentConnections := by
  unfold increaseFailedConnections
  split <;> rfl

/-- The settings a PERCY request can change: `args.disectors_enabled`,
`buffers_size` and the seconds of the selector's timeout. -/
structure Settings where
  disectorsEnabled : Bool
  buffersSize : UInt64
  selectorTimeout : UInt64
  deriving DecidableEq, Repr

/-- `set_disector_value`. -/
def setDisectorValue (value : UInt16) (s : Settings) : Settings :=
  { s with disectorsEnabled := value != 0 }

/-- `set_buffer_size`. -/
def setBufferSize (value : UInt16) (s : Settings) : Settings :=
  { s with buffersSize := value.toUInt64 }

/-- `set_selector_timeout`. -/
def setSelectorTimeout (value : UInt16) (s : Settings) : Settings :=
  { s with selectorTimeout := value.toUInt64 }

end HttpdProxy
