import Concolic.Text.Utf8

/-!
# Words of four octets

A 32-bit word as four octets, the least significant first.
-/

namespace Concolic

namespace Word32

def octets (w : UInt32) : Bytes :=
  [UInt8.ofNat w.toNat, UInt8.ofNat (w.toNat / 0x100), UInt8.ofNat (w.toNat / 0x10000),
    UInt8.ofNat (w.toNat / 0x1000000)]

def ofOctets (a b c d : UInt8) : UInt32 :=
  UInt32.ofNat (a.toNat + b.toNat * 0x100 + c.toNat * 0x10000 + d.toNat * 0x1000000)

@[simp] theorem length_octets (w : UInt32) : (octets w).length = 4 := rfl

theorem ofOctets_octets (w : UInt32) :
    ofOctets (UInt8.ofNat w.toNat) (UInt8.ofNat (w.toNat / 0x100))
      (UInt8.ofNat (w.toNat / 0x10000)) (UInt8.ofNat (w.toNat / 0x1000000)) = w := by
  have h := w.toNat_lt
  apply UInt32.toNat.inj
  simp only [ofOctets, UInt32.toNat_ofNat', UInt8.toNat_ofNat']
  omega

theorem octets_ofOctets (a b c d : UInt8) : octets (ofOctets a b c d) = [a, b, c, d] := by
  have ha := a.toNat_lt
  have hb := b.toNat_lt
  have hc := c.toNat_lt
  have hd := d.toNat_lt
  simp only [octets, ofOctets, UInt32.toNat_ofNat', List.cons.injEq, and_true]
  refine ⟨?_, ?_, ?_, ?_⟩ <;> apply UInt8.toNat.inj <;> simp only [UInt8.toNat_ofNat'] <;> omega

end Word32

end Concolic
