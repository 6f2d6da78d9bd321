import SlStatus.Wifi

/-! `findattr` inverts the encoding of attributes: over attributes laid out one after the other
it comes to the payload of the first one of the type that it is asked for. -/

namespace SlStatus.AttributeLookup
open CString Netlink Wifi

theorem findattr_encode {attr : Nat} {nla : Attribute} {bytes rest : List Byte} {p e : Nat} (steps : Nat)
    (here : bytes.drop p = nla.encode ++ rest) (fits : nla.length < 65536) (before : p < e) :
    findattr attr bytes (steps + 1) p e =
      if nla.type.toNat = attr then .ok (some (p + 4, nla.payload.length))
      else findattr attr bytes steps (p + align nla.length) e := by
  obtain ⟨length, type, room, -⟩ := read_encode here fits
  have large := le_align nla.length
  have header : nla.length = 4 + nla.payload.length := rfl
  have payload : (nla.length + 2 ^ 64 - 4) % 2 ^ 64 = nla.payload.length := by omega
  simp only [findattr, if_pos before, length, type, NLA_HDRLEN]
  rw [payload]

/-- Attributes of other types are walked over, to the byte at which the rest begins. -/
theorem findattr_passed {attr : Nat} {front : List Attribute} {bytes rest : List Byte} {p e steps : Nat}
    (here : bytes.drop p = encodeAll front ++ rest) (fits : ∀ nla ∈ front, nla.length < 65536)
    (others : ∀ nla ∈ front, nla.type.toNat ≠ attr) (inside : p + (encodeAll front).length < e + 4) :
    findattr attr bytes (front.length + steps) p e = findattr attr bytes steps (p + (encodeAll front).length) e := by
  induction front generalizing p with
  | nil => rw [List.length_nil, Nat.zero_add]; rfl
  | cons nla front ih =>
    obtain ⟨small, fits⟩ := List.forall_mem_cons.mp fits
    obtain ⟨other, others⟩ := List.forall_mem_cons.mp others
    have large := le_align nla.length
    have header : nla.length = 4 + nla.payload.length := rfl
    rw [encodeAll_cons, List.length_append, Attribute.length_encode] at inside ⊢
    rw [encodeAll_cons, List.append_assoc] at here
    have next : bytes.drop (p + align nla.length) = encodeAll front ++ rest := (read_encode here small).2.2.2
    calc
      _ = findattr attr bytes (front.length + steps + 1) p e := by rw [List.length_cons, Nat.add_right_comm]
      _ = findattr attr bytes (front.length + steps) (p + align nla.length) e := by
        rw [findattr_encode _ here small (by omega), if_neg other]
      _ = findattr attr bytes steps (p + align nla.length + (encodeAll front).length) e :=
        ih next fits others (by omega)
      _ = _ := by rw [Nat.add_assoc]

/-- It comes to the first attribute of the type, if that begins before the end. -/
theorem findattr_first {attr : Nat} {front back : List Attribute} {nla : Attribute} {bytes tail : List Byte}
    {p e steps : Nat} (here : bytes.drop p = encodeAll (front ++ nla :: back) ++ tail)
    (fits : ∀ other ∈ front ++ nla :: back, other.length < 65536) (others : ∀ other ∈ front, other.type.toNat ≠ attr)
    (found : nla.type.toNat = attr) (before : p + (encodeAll front).length < e) (enough : front.length < steps) :
    findattr attr bytes steps p e = .ok (some (p + (encodeAll front).length + 4, nla.payload.length)) := by
  obtain ⟨small, fits⟩ := List.forall_mem_append.mp fits
  obtain ⟨spare, rfl⟩ := Nat.exists_eq_add_of_lt enough
  rw [encodeAll_append, encodeAll_cons, List.append_assoc, List.append_assoc] at here
  rw [Nat.add_assoc, findattr_passed here small others (by omega),
    findattr_encode spare (drop_add_of_drop_eq here) (List.forall_mem_cons.mp fits).1 before, if_pos found]

/-- `findattr` walks over attributes as they are laid out. The last one may have up to three
bytes of padding behind the end that it is given. -/
theorem findattr_encodeAll (attr : Nat) {trim : Nat} {nlas : List Attribute} {bytes tail : List Byte}
    {p e steps : Nat}
    (here : bytes.drop p = encodeAll nlas ++ tail) (fits : ∀ nla ∈ nlas, nla.length < 65536) (trimmed : trim < 4)
    (bound : e + trim = p + (encodeAll nlas).length) (enough : nlas.length ≤ steps) :
    findattr attr bytes steps p e = .ok none ∧ (∀ nla ∈ nlas, nla.type.toNat ≠ attr) ∨
      ∃ front nla back, nlas = front ++ nla :: back ∧ (∀ other ∈ front, other.type.toNat ≠ attr) ∧
        nla.type.toNat = attr ∧
        findattr attr bytes steps p e = .ok (some (p + (encodeAll front).length + 4, nla.payload.length)) := by
  cases hit : nlas.find? fun nla => nla.type.toNat = attr with
  | none =>
    have others : ∀ nla ∈ nlas, nla.type.toNat ≠ attr := by simpa using List.find?_eq_none.mp hit
    have ended : ¬p + (encodeAll nlas).length < e := by omega
    obtain ⟨spare, rfl⟩ := Nat.exists_eq_add_of_le enough
    left
    refine ⟨?_, others⟩
    rw [findattr_passed here fits others (by omega)]
    cases spare <;> simp only [findattr, if_neg ended]
  | some nla =>
    obtain ⟨found, front, back, rfl, others⟩ := List.find?_eq_some_iff_append.mp hit
    simp only [decide_eq_true_eq] at found
    have others : ∀ other ∈ front, other.type.toNat ≠ attr := by simpa using others
    have large := le_align nla.length
    have header : nla.length = 4 + nla.payload.length := rfl
    rw [encodeAll_append, encodeAll_cons, List.length_append, List.length_append, Attribute.length_encode] at bound
    rw [List.length_append, List.length_cons] at enough
    right
    exact ⟨front, nla, back, rfl, others, found, findattr_first here fits others found (by omega) (by omega)⟩

/-- Over the encoding of any attributes, whatever lies before and behind it, `findattr` returns
where the payload of the first attribute of the type begins and how long it is, and nothing if
there is none of the type. -/
theorem findattr_inverts (attr : Nat) {nlas : List Attribute} (fits : ∀ nla ∈ nlas, nla.length < 65536)
    (before after : List Byte) {steps : Nat} (enough : nlas.length ≤ steps) :
    ((∀ nla ∈ nlas, nla.type.toNat ≠ attr) →
        findattr attr (before ++ (encodeAll nlas ++ after)) steps before.length
          (before.length + (encodeAll nlas).length) = .ok none) ∧
      ∀ front nla back, nlas = front ++ nla :: back → (∀ other ∈ front, other.type.toNat ≠ attr) →
        nla.type.toNat = attr →
          findattr attr (before ++ (encodeAll nlas ++ after)) steps before.length
            (before.length + (encodeAll nlas).length) =
              .ok (some (before.length + (encodeAll front).length + 4, nla.payload.length)) ∧
            ((before ++ (encodeAll nlas ++ after)).drop (before.length + (encodeAll front).length + 4)).take
              nla.payload.length = nla.payload := by
  have here : (before ++ (encodeAll nlas ++ after)).drop before.length = encodeAll nlas ++ after := List.drop_left
  constructor
  · intro others
    obtain ⟨spare, rfl⟩ := Nat.exists_eq_add_of_le enough
    rw [findattr_passed here fits others (by omega)]
    cases spare <;> simp only [findattr, if_neg (Nat.lt_irrefl _)]
  · rintro front nla back rfl others found
    obtain ⟨rest, payload⟩ := drop_payload here
    refine ⟨?_, by rw [payload, List.take_left]⟩
    have large := le_align nla.length
    have header : nla.length = 4 + nla.payload.length := rfl
    rw [List.length_append, List.length_cons] at enough
    apply findattr_first here fits others found ?_ (by omega)
    rw [encodeAll_append, encodeAll_cons, List.length_append, List.length_append, Attribute.length_encode]
    omega

/-- An attribute of one byte, then one of two. -/
def pair : List Attribute := [⟨1, [0x31]⟩, ⟨52, [0x41, 0x42]⟩]

theorem findattr_inverts_pair : findattr 52 (encodeAll pair) 2 0 16 = .ok (some (12, 2)) := by
  have fits : ∀ nla ∈ pair, nla.length < 65536 := by decide
  have enough : pair.length ≤ 2 := by decide
  exact ((findattr_inverts 52 fits [] [] enough).2 [⟨1, [0x31]⟩] ⟨52, [0x41, 0x42]⟩ [] rfl (by decide) rfl).1

end SlStatus.AttributeLookup
