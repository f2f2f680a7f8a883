import Mathlib.Algebra.Ring.Nat

/-!
# The wire format

A message is its length in four bytes and its text.  A connection may break at any byte.
-/

namespace OddJobs.Wire

def MAX_MESSAGE_SIZE : Nat := 200 * 1024 * 1024

inductive ProtocolError where
  | io
  | messageTooLarge (size max : Nat)
  | connectionClosed

def toBeBytes (n : Nat) : List UInt8 :=
  [.ofNat (n / 2 ^ 24), .ofNat (n / 2 ^ 16), .ofNat (n / 2 ^ 8), .ofNat n]

def fromBeBytes (a b c d : UInt8) : Nat :=
  a.toNat * 2 ^ 24 + b.toNat * 2 ^ 16 + c.toNat * 2 ^ 8 + d.toNat

def writeMessage (data : List UInt8) : Except ProtocolError (List UInt8) :=
  if MAX_MESSAGE_SIZE < data.length then throw (.messageTooLarge data.length MAX_MESSAGE_SIZE)
  else pure (toBeBytes data.length ++ data)

def readMessage : List UInt8 → Except ProtocolError (List UInt8 × List UInt8)
  | a :: b :: c :: d :: rest =>
      let len := fromBeBytes a b c d
      if MAX_MESSAGE_SIZE < len then throw (.messageTooLarge len MAX_MESSAGE_SIZE)
      else if rest.length < len then throw .io
      else pure (rest.take len, rest.drop len)
  | _ => throw .connectionClosed

theorem fromBeBytes_toBeBytes {n : Nat} (small : n < 2 ^ 32) :
    fromBeBytes (.ofNat (n / 2 ^ 24)) (.ofNat (n / 2 ^ 16)) (.ofNat (n / 2 ^ 8)) (.ofNat n) =
      n := by
  simp only [fromBeBytes, UInt8.toNat_ofNat']
  omega

/-- A message that was written is read whole, with all that follows it left, or, where the
connection breaks before its end, not at all. -/
theorem message_whole {data frame : List UInt8} (written : writeMessage data = .ok frame) :
    (∀ rest, readMessage (frame ++ rest) = .ok (data, rest)) ∧
      ∀ n < frame.length, readMessage (frame.take n) =
        .error (if n < 4 then .connectionClosed else .io) := by
  unfold writeMessage at written
  split at written
  · cases written
  · next small =>
      cases written
      have length : fromBeBytes _ _ _ _ = data.length :=
        fromBeBytes_toBeBytes (Nat.lt_of_le_of_lt (Nat.le_of_not_lt small) (by decide))
      have short : ¬MAX_MESSAGE_SIZE < data.length := small
      constructor
      · intro rest
        have enough : ¬(data ++ rest).length < data.length := by simp
        simp only [toBeBytes, List.cons_append, List.nil_append, readMessage, length, if_neg short,
          if_neg enough, List.take_left', List.drop_left']
        rfl
      · intro n cut
        match n with
        | 0 | 1 | 2 | 3 => rfl
        | n + 4 =>
            have missing : (data.take n).length < data.length := by
              simp [toBeBytes] at cut ⊢
              omega
            simp only [toBeBytes, List.cons_append, List.nil_append, List.take_succ_cons,
              readMessage, length, if_neg short, if_pos missing]
            rfl

theorem message_whole_two :
    (∀ rest, readMessage ([0, 0, 0, 2, 7, 7] ++ rest) = .ok ([7, 7], rest)) ∧
      ∀ n < 6, readMessage ([0, 0, 0, 2, 7, 7].take n) =
        .error (if n < 4 then .connectionClosed else .io) :=
  message_whole rfl

end OddJobs.Wire
