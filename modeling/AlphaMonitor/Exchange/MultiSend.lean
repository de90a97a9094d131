import AlphaMonitor.Exchange.OrderAmounts
import AlphaMonitor.Lib.Layout

/-!
# Batches of transactions

A Safe sends several transactions as one: they are written in a row, each as its kind, its target,
its value and its data, and the multi-send contract reads them from the front.

## Main definitions

- `encodeMultisendTxs`: a batch in bytes
- `decodeMultisendTxs`: a batch from bytes

## Main results

- `decode_multisend_iff`: the batches and the texts that are read correspond
-/

namespace AlphaMonitor.Exchange

open AlphaMonitor.Lib

/-- The 20 bytes of an address. -/
@[ext]
structure Address where
  bytes : List UInt8
  length_bytes : bytes.length = 20
  deriving DecidableEq

/-- `MultiSendTx`. -/
@[ext]
structure MultiSendTx where
  operation : UInt8
  toAddress : Address
  value : ℕ
  data : List UInt8
  value_le : value ≤ u256Max
  length_data : data.length < 2 ^ 64
  deriving DecidableEq

namespace MultiSendTx

variable (tx : MultiSendTx)

/-- The bytes of a transaction. -/
def encode : List UInt8 :=
  [tx.operation] ++ (tx.toAddress.bytes ++ (bigEndian 32 tx.value ++
    (bigEndian 32 tx.data.length ++ tx.data)))

/-- The fields in the order in which they are written. -/
abbrev Fields := UInt8 × List UInt8 × ℕ × ℕ × List UInt8

def fields : Fields := (tx.operation, tx.toAddress.bytes, tx.value, tx.data.length, tx.data)

def ofFields (fields : Fields) : Option MultiSendTx :=
  let (operation, toAddress, value, length, data) := fields
  if h : toAddress.length = 20 ∧ value ≤ u256Max ∧ data.length < 2 ^ 64 ∧ length = data.length then
    some ⟨operation, ⟨toAddress, h.1⟩, value, data, h.2.1, h.2.2.1⟩
  else none

/-- One transaction from the front. -/
def read : Reader UInt8 MultiSendTx :=
  (Reader.item.andThen fun _ => (Reader.exactly 20).andThen fun _ =>
    (Reader.number 32).andThen fun _ => (Reader.number 32).andThen fun length =>
      Reader.exactly length).via ofFields

end MultiSendTx

/-- `encode_multisend_txs`. -/
def encodeMultisendTxs (txs : List MultiSendTx) : List UInt8 := txs.flatMap MultiSendTx.encode

/-- The transactions of a batch. -/
def decodeMultisendTxs (bytes : List UInt8) : Option (List MultiSendTx) :=
  MultiSendTx.read.many bytes

namespace MultiSendTx

/-- The values that the fields may have. -/
def IsFields (fields : Fields) : Prop :=
  True ∧ fields.2.1.length = 20 ∧ fields.2.2.1 < 256 ^ 32 ∧ fields.2.2.2.1 < 256 ^ 32 ∧
    fields.2.2.2.2.length = fields.2.2.2.1

theorem fields_inverts :
    (Reader.item.andThen fun _ : UInt8 => (Reader.exactly 20).andThen fun _ : List UInt8 =>
      (Reader.number 32).andThen fun _ => (Reader.number 32).andThen fun length =>
        Reader.exactly length).Inverts IsFields fun fields =>
      [fields.1] ++ (id fields.2.1 ++ (bigEndian 32 fields.2.2.1 ++
        (bigEndian 32 fields.2.2.2.1 ++ id fields.2.2.2.2))) :=
  Reader.item_inverts.andThen fun _ _ => (Reader.exactly_inverts 20).andThen fun _ _ =>
    (Reader.number_inverts 32).andThen fun _ _ => (Reader.number_inverts 32).andThen
      fun length _ => Reader.exactly_inverts length

theorem u256Max_lt : u256Max < 256 ^ 32 := by decide

theorem isFields_fields (tx : MultiSendTx) : IsFields tx.fields :=
  ⟨trivial, tx.toAddress.length_bytes, tx.value_le.trans_lt u256Max_lt,
    tx.length_data.trans (by decide), rfl⟩

theorem ofFields_fields (tx : MultiSendTx) : ofFields tx.fields = some tx :=
  dif_pos ⟨tx.toAddress.length_bytes, tx.value_le, tx.length_data, rfl⟩

theorem fields_of_ofFields {fields : Fields} {tx : MultiSendTx}
    (h : ofFields fields = some tx) : tx.fields = fields := by
  obtain ⟨operation, toAddress, value, length, data⟩ := fields
  unfold ofFields at h
  dsimp only at h
  split at h
  · rename_i hfields
    cases Option.some.inj h
    exact congrArg (fun n => (operation, toAddress, value, n, data)) hfields.2.2.2.symm
  · cases h

theorem read_inverts : read.Inverts (fun _ => True) encode :=
  fields_inverts.via (fun tx _ => ⟨isFields_fields tx, ofFields_fields tx⟩)
    fun _ _ _ h => ⟨trivial, fields_of_ofFields h⟩

theorem encode_ne_nil (tx : MultiSendTx) : tx.encode ≠ [] := List.cons_ne_nil _ _

end MultiSendTx

/-- What is read as a batch is what is written for it, and nothing else. -/
theorem decode_multisend_iff {bytes : List UInt8} {txs : List MultiSendTx} :
    decodeMultisendTxs bytes = some txs ↔ bytes = encodeMultisendTxs txs := by
  rw [decodeMultisendTxs,
    MultiSendTx.read_inverts.many_eq_some_iff fun tx _ => tx.encode_ne_nil]
  exact ⟨And.right, fun h => ⟨fun _ _ => trivial, h⟩⟩

theorem decode_encode (txs : List MultiSendTx) :
    decodeMultisendTxs (encodeMultisendTxs txs) = some txs := decode_multisend_iff.mpr rfl

end AlphaMonitor.Exchange
