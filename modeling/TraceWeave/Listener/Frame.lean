/-!
# Frames

Messages travel in frames: a byte that tells how the message is packed, its length in four bytes
with the highest first, and the message itself. A call carries one message. What follows it has to
be framed as well, but is passed over.

* `splitFirst_write`: a frame that is written is read back, whatever follows it;
* `message_write`: the message of a call is the one that was written.
-/

namespace TraceWeave.Listener.Frame

/-- The longest message that is taken, in bytes. -/
def maxLength : Nat :=
  4 * 1024 * 1024

/-- Why the bytes of a call hold no message. -/
inductive Fault
  /-- A message that is packed in a way that was not agreed on. -/
  | packed
  | tooLong
  /-- The bytes end inside a frame. -/
  | cutShort
  /-- The bytes end behind a header that announces a message. -/
  | announced
  | missing
deriving DecidableEq, Repr

/-- What stands before a message of a length. -/
def header (length : Nat) : List UInt8 :=
  [0, UInt8.ofNat (length / 0x1000000), UInt8.ofNat (length / 0x10000),
    UInt8.ofNat (length / 0x100), UInt8.ofNat length]

/-- A message in its frame. -/
def write (message : List UInt8) : List UInt8 :=
  header message.length ++ message

/-- The number that four bytes stand for. -/
def lengthOf (a b c d : UInt8) : Nat :=
  ((a.toNat * 256 + b.toNat) * 256 + c.toNat) * 256 + d.toNat

/-- The first message and the bytes behind it. -/
def splitFirst : List UInt8 → Except Fault (List UInt8 × List UInt8)
  | packing :: a :: b :: c :: d :: rest =>
    let length := lengthOf a b c d
    if packing ≠ 0 then .error .packed
    else if maxLength < length then .error .tooLong
    else if length ≤ rest.length then .ok (rest.take length, rest.drop length)
    else if rest.isEmpty then .error .announced
    else .error .cutShort
  | _ => .error .cutShort

theorem length_lt_of_splitFirst {bytes message rest : List UInt8}
    (h : splitFirst bytes = .ok (message, rest)) : rest.length < bytes.length := by
  unfold splitFirst at h
  split at h
  · simp only at h
    split at h
    · cases h
    · split at h
      · cases h
      · split at h
        · simp only [Except.ok.injEq, Prod.mk.injEq] at h
          simp only [← h.2, List.length_drop, List.length_cons]
          omega
        · split at h <;> cases h
  · cases h

/-- All messages. A header that announces a message ends them if nothing stands behind it. -/
def messages (bytes : List UInt8) : Except Fault (List (List UInt8)) :=
  if bytes.isEmpty then .ok []
  else
    match _h : splitFirst bytes with
    | .error .announced => .ok []
    | .error fault => .error fault
    | .ok (message, rest) => (messages rest).map (message :: ·)
termination_by bytes.length
decreasing_by exact length_lt_of_splitFirst _h

/-- The message of a call. -/
def message (bytes : List UInt8) : Except Fault (List UInt8) := do
  match ← messages bytes with
  | [] => throw .missing
  | first :: _ => return first

theorem lengthOf_header {length : Nat} (h : length < 0x1_0000_0000) :
    lengthOf (UInt8.ofNat (length / 0x1000000)) (UInt8.ofNat (length / 0x10000))
      (UInt8.ofNat (length / 0x100)) (UInt8.ofNat length) = length := by
  simp only [lengthOf, UInt8.toNat_ofNat']
  omega

theorem splitFirst_write {message : List UInt8} (h : message.length ≤ maxLength)
    (rest : List UInt8) : splitFirst (write message ++ rest) = .ok (message, rest) := by
  have hlength : message.length < 0x1_0000_0000 := by
    have : maxLength < 0x1_0000_0000 := by decide
    omega
  simp only [write, header, List.cons_append, List.nil_append, splitFirst,
    lengthOf_header hlength]
  simp [Nat.not_lt.2 h]

theorem message_write {text : List UInt8} (h : text.length ≤ maxLength) :
    message (write text) = .ok text := by
  have hsplit := splitFirst_write h []
  rw [List.append_nil] at hsplit
  have hne : (write text).isEmpty = false := rfl
  have hall : messages (write text) = .ok [text] := by
    rw [messages, hne]
    simp only [Bool.false_eq_true, if_false]
    split
    · next heq => rw [hsplit] at heq; cases heq
    · next heq => rw [hsplit] at heq; cases heq
    · next heq =>
      rw [hsplit] at heq
      simp only [Except.ok.injEq, Prod.mk.injEq] at heq
      obtain ⟨rfl, rfl⟩ := heq
      rw [messages]
      rfl
  simp only [message, hall]
  rfl

end TraceWeave.Listener.Frame
