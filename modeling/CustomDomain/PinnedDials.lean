import CustomDomain.IpNetworks
import CustomDomain.OriginVerification
import Mathlib.Data.List.MinMax
import Mathlib.Data.Prod.Lex

/-!
# The dial of an origin

`resolve_dials` and `pinned_dial` of `app/services/origin_verification.py`.  The address is chosen from
the whole answer, so it changes with the set of addresses only.
-/

namespace CustomDomain

open PythonText PythonIp OriginVerification

/-! ## Dials -/

/-- The dial of an address: one with a colon in it stands in brackets. -/
def dialText (port : Nat) (address : SocketAddress) : String :=
  if ':' ∈ address.text.toList then "[" ++ address.text ++ "]:" ++ toString port
  else address.text ++ ":" ++ toString port

/-- `resolve_dials`. -/
def resolveDials (network : Network) (allowPrivate : Bool) (host : String) (port : Nat) :
    Except Failed (List String) :=
  (resolve network host port allowPrivate).map fun addresses => addresses.map (dialText port)

/-- `_dial_order`, or `none` where `ip_address` raises `ValueError`. -/
def dialOrder (dial : String) : Option (Nat ×ₗ Nat) :=
  (ipAddress (stripOf ['[', ']'] ((rsplitOnce ':' dial).headD ""))).map fun address =>
    toLex (address.version, address.value)

/-- What `pinned_dial` can end with besides a dial. -/
inductive Unpinned where
  | failed (failed : Failed)
  | valueError

/-- `pinned_dial`. -/
def pinnedDial (network : Network) (allowPrivate : Bool) (host : String) (port : Nat) :
    Except Unpinned (String × String) :=
  match resolveDials network allowPrivate host port with
  | .error failed => .error (.failed failed)
  | .ok dials =>
      match dials.mapM fun dial => (dialOrder dial).map fun order => (dial, order) with
      | none => .error .valueError
      | some ordered =>
          match ordered.argmin Prod.snd with
          | none => .error .valueError
          | some (dial, _) => .ok (dial, host)

/-! ## The order of the dials -/

theorem rsplitOnce_append {separator : Char} {first last : String}
    (absent : separator ∉ last.toList) :
    rsplitOnce separator (first ++ String.singleton separator ++ last) = [first, last] := by
  have text : (first ++ String.singleton separator ++ last).toList.reverse =
      last.toList.reverse ++ separator :: first.toList.reverse := by simp
  have absent' : separator ∉ last.toList.reverse := by simpa using absent
  obtain ⟨piece, pieces, shape⟩ : ∃ piece pieces,
      first.toList.reverse.splitOn separator = piece :: pieces :=
    List.exists_cons_of_ne_nil (List.splitOn_ne_nil _ _)
  have joined : [separator].intercalate (piece :: pieces) = first.toList.reverse := by
    rw [← shape, List.intercalate_splitOn]
  rw [rsplitOnce, text, List.splitOn_append_cons_self_of_not_mem absent', shape]
  dsimp only
  rw [joined]
  simp

/-- What is dropped from both ends, around a text without any of it. -/
theorem trim_surrounded {test : Char → Bool} {first text last : List Char}
    (before : ∀ character ∈ first, test character = true)
    (clean : ∀ character ∈ text, test character = false)
    (after : ∀ character ∈ last, test character = true) :
    trim test (first ++ text ++ last) = text := by
  rw [trim, List.append_assoc, List.dropWhile_append_of_pos before]
  cases text with
  | nil =>
      rw [List.nil_append, List.dropWhile_eq_nil_iff.mpr after]
      rfl
  | cons head tail =>
      have kept : (head :: tail ++ last).dropWhile test = head :: tail ++ last := by
        rw [List.cons_append, List.dropWhile_cons_of_neg]
        simp [clean head List.mem_cons_self]
      have gone : ∀ character ∈ last.reverse, test character = true := by
        intro character member
        exact after character (List.mem_reverse.mp member)
      rw [kept, List.rdropWhile, List.reverse_append, List.dropWhile_append_of_pos gone]
      have whole : (head :: tail).rdropWhile test = head :: tail := by
        rw [List.rdropWhile_eq_self_iff]
        intro nonempty
        simp [clean _ (List.getLast_mem nonempty)]
      exact whole

theorem stripOf_surrounded {characters : List Char} {first text last : String}
    (before : ∀ character ∈ first.toList, character ∈ characters)
    (clean : ∀ character ∈ text.toList, character ∉ characters)
    (after : ∀ character ∈ last.toList, character ∈ characters) :
    stripOf characters (first ++ text ++ last) = text := by
  rw [stripOf, String.toList_append, String.toList_append, trim_surrounded, String.ofList_toList]
  · intro character member
    simpa using before character member
  · intro character member
    simpa using clean character member
  · intro character member
    simpa using after character member

theorem dialOrder_dialText {address : SocketAddress} (port : Nat)
    (clean : ∀ character ∈ address.text.toList, character ∉ ['[', ']']) :
    dialOrder (dialText port address) = some (toLex (address.ip.version, address.ip.value)) := by
  have digits : ':' ∉ (toString port).toList := by
    intro inside
    cases (toString_digits port ':' inside : false = true)
  have bracketed : stripOf ['[', ']'] ("[" ++ address.text ++ "]") = address.text :=
    stripOf_surrounded (by simp) clean (by simp)
  unfold dialText dialOrder
  split
  next =>
    have shape : "[" ++ address.text ++ "]:" ++ toString port =
        ("[" ++ address.text ++ "]") ++ String.singleton ':' ++ toString port := by
      apply String.toList_injective
      simp
    rw [shape, rsplitOnce_append digits, List.headD_cons, bracketed, address.parses]
    rfl
  next =>
    rw [show ":" = String.singleton ':' from rfl, rsplitOnce_append digits, List.headD_cons,
      stripOf_of_none clean, address.parses]
    rfl

/-! ## What a dial is pinned from -/

/-- The addresses of an answer. -/
def OriginVerification.Lookup.addresses : Lookup → List SocketAddress
  | .failed _ => []
  | .found addresses => addresses

/-- An address is printed in one way, without a bracket in it. -/
structure Printed (addresses : List SocketAddress) : Prop where
  once : ∀ first ∈ addresses, ∀ second ∈ addresses, first.ip = second.ip → first.text = second.text
  clean : ∀ address ∈ addresses, ∀ character ∈ address.text.toList, character ∉ ['[', ']']

/-- The place of an address in the order of the dials. -/
def addressOrder (address : SocketAddress) : Nat ×ₗ Nat :=
  toLex (address.ip.version, address.ip.value)

theorem ip_of_addressOrder {first second : SocketAddress}
    (same : addressOrder first = addressOrder second) : first.ip = second.ip := by
  have parts := toLex.injective same
  cases one : first.ip <;> cases two : second.ip <;>
    simp [one, two, IpAddress.version, IpAddress.value] at parts ⊢
  · exact parts
  · exact parts

theorem mem_foldl_distinct (answers addresses : List SocketAddress) (address : SocketAddress) :
    address ∈ answers.foldl (fun addresses address =>
      if address ∈ addresses then addresses else addresses ++ [address]) addresses ↔
      address ∈ addresses ∨ address ∈ answers := by
  induction answers generalizing addresses with
  | nil => simp
  | cons first rest ih =>
      rw [List.foldl_cons, ih, List.mem_cons]
      split
      next known =>
        constructor
        · intro either
          exact either.imp_right .inr
        · intro either
          rcases either with old | rfl | later
          · exact .inl old
          · exact .inl known
          · exact .inr later
      next => rw [List.mem_append, List.mem_singleton, or_assoc]

section Resolving

variable {network : Network} {host : String} {port : Nat} {allowPrivate : Bool}

/-- The addresses that may be dialed: there is one, and none of them is refused. -/
def Acceptable (allowPrivate : Bool) (addresses : List SocketAddress) : Prop :=
  addresses ≠ [] ∧ (allowPrivate = true ∨ ∀ address ∈ addresses, address.ip.isGlobal = true)

theorem resolve_acceptable (acceptable : Acceptable allowPrivate (network.lookup host port).addresses) :
    ∃ addresses, resolve network host port allowPrivate = .ok addresses ∧
      ∀ address, address ∈ addresses ↔ address ∈ (network.lookup host port).addresses := by
  unfold resolve
  cases answer : network.lookup host port with
  | failed reason =>
      rw [answer] at acceptable
      exact absurd rfl acceptable.1
  | found answers =>
      rw [answer] at acceptable
      have known := mem_foldl_distinct answers []
      dsimp only at known ⊢
      simp only [List.not_mem_nil, false_or] at known
      have nonempty : answers.foldl (fun addresses address =>
          if address ∈ addresses then addresses else addresses ++ [address]) [] ≠ [] := by
        intro empty
        obtain ⟨address, member⟩ := List.exists_mem_of_ne_nil _ acceptable.1
        have inside := (known address).mpr member
        rw [empty] at inside
        cases inside
      rw [if_neg nonempty, if_neg]
      · exact ⟨_, rfl, known⟩
      · intro refused
        obtain ⟨address, member⟩ := List.exists_mem_of_ne_nil _ refused.2
        obtain ⟨inside, foreign⟩ := List.mem_filter.mp member
        rcases acceptable.2 with allowed | global
        · rw [allowed] at refused
          cases refused.1
        · rw [global address ((known address).mp inside)] at foreign
          cases foreign

theorem resolve_unacceptable
    (unacceptable : ¬ Acceptable allowPrivate (network.lookup host port).addresses) :
    ∃ failed, resolve network host port allowPrivate = .error failed := by
  unfold resolve
  cases answer : network.lookup host port with
  | failed reason => exact ⟨_, rfl⟩
  | found answers =>
      rw [answer] at unacceptable
      have known := mem_foldl_distinct answers []
      dsimp only at known ⊢
      simp only [List.not_mem_nil, false_or] at known
      split
      next => exact ⟨_, rfl⟩
      next nonempty =>
        rw [if_pos]
        · exact ⟨_, rfl⟩
        · have some_ : answers ≠ [] := by
            intro empty
            rw [empty] at nonempty
            exact nonempty rfl
          rw [Acceptable, not_and, not_or] at unacceptable
          obtain ⟨closed, foreign⟩ := unacceptable some_
          constructor
          · simpa using closed
          · intro none
            refine foreign fun address member => ?_
            have inside := List.filter_eq_nil_iff.mp none address ((known address).mpr member)
            simpa using inside

/-- The dial with the least address, whatever the order of the answer. -/
theorem pinnedDial_acceptable (printed : Printed (network.lookup host port).addresses)
    (acceptable : Acceptable allowPrivate (network.lookup host port).addresses) :
    ∃ address ∈ (network.lookup host port).addresses,
      pinnedDial network allowPrivate host port = .ok (dialText port address, host) ∧
        ∀ other ∈ (network.lookup host port).addresses, addressOrder address ≤ addressOrder other := by
  obtain ⟨addresses, resolved, known⟩ := resolve_acceptable acceptable
  have ordered : (addresses.map (dialText port)).mapM
      (fun dial => (dialOrder dial).map fun order => (dial, order)) =
        some (addresses.map fun address => (dialText port address, addressOrder address)) := by
    have clean : ∀ address ∈ addresses, ∀ character ∈ address.text.toList, character ∉ ['[', ']'] :=
      fun address member => printed.clean address ((known address).mp member)
    clear resolved known
    induction addresses with
    | nil => rfl
    | cons first rest ih =>
        rw [List.map_cons, List.mapM_cons, dialOrder_dialText port (clean first List.mem_cons_self),
          ih fun address member => clean address (List.mem_cons_of_mem _ member)]
        rfl
  unfold pinnedDial resolveDials
  rw [resolved]
  dsimp only [Except.map]
  rw [ordered]
  dsimp only
  cases least : (addresses.map fun address => (dialText port address, addressOrder address)).argmin
      Prod.snd with
  | none =>
      have empty := List.map_eq_nil_iff.mp (List.argmin_eq_none.mp least)
      obtain ⟨address, member⟩ := List.exists_mem_of_ne_nil _ acceptable.1
      rw [← known, empty] at member
      cases member
  | some found =>
      obtain ⟨dial, order⟩ := found
      obtain ⟨address, member, same⟩ := List.mem_map.mp (List.argmin_mem least)
      cases same
      have below := fun other inside => List.le_of_mem_argmin (f := Prod.snd)
        (List.mem_map_of_mem (f := fun address => (dialText port address, addressOrder address))
          ((known other).mpr inside)) least
      exact ⟨address, (known address).mp member, rfl, below⟩

theorem pinnedDial_unacceptable
    (unacceptable : ¬ Acceptable allowPrivate (network.lookup host port).addresses) :
    ∃ failed, pinnedDial network allowPrivate host port = .error (.failed failed) := by
  obtain ⟨failed, refused⟩ := resolve_unacceptable unacceptable
  unfold pinnedDial resolveDials
  rw [refused]
  exact ⟨failed, rfl⟩

end Resolving

/-! ## Answers in another order -/

/-- Two resolvers that give a name the same set of addresses. -/
def SameAnswers (first second : Network) (host : String) (port : Nat) : Prop :=
  ∀ address, address ∈ (first.lookup host port).addresses ↔
    address ∈ (second.lookup host port).addresses

section Order

variable {first second : Network} {host : String} {port : Nat}

theorem Printed.transfer (printed : Printed (first.lookup host port).addresses)
    (same : SameAnswers first second host port) : Printed (second.lookup host port).addresses where
  once := fun one member two inside => printed.once one ((same one).mpr member) two ((same two).mpr inside)
  clean := fun address member => printed.clean address ((same address).mpr member)

theorem Acceptable.transfer {allowPrivate : Bool}
    (acceptable : Acceptable allowPrivate (first.lookup host port).addresses)
    (same : SameAnswers first second host port) :
    Acceptable allowPrivate (second.lookup host port).addresses := by
  constructor
  · obtain ⟨address, member⟩ := List.exists_mem_of_ne_nil _ acceptable.1
    exact List.ne_nil_of_mem ((same address).mp member)
  · rcases acceptable.2 with allowed | global
    · exact .inl allowed
    · exact .inr fun address member => global address ((same address).mpr member)

theorem SameAnswers.symm (same : SameAnswers first second host port) :
    SameAnswers second first host port := fun address => (same address).symm

/-- Both pin one dial, or neither pins one. -/
theorem pinnedDial_same (allowPrivate : Bool) (printed : Printed (first.lookup host port).addresses)
    (same : SameAnswers first second host port) :
    (∃ dial, pinnedDial first allowPrivate host port = .ok dial ∧
      pinnedDial second allowPrivate host port = .ok dial) ∨
    (∃ one two, pinnedDial first allowPrivate host port = .error (.failed one) ∧
      pinnedDial second allowPrivate host port = .error (.failed two)) := by
  by_cases acceptable : Acceptable allowPrivate (first.lookup host port).addresses
  · obtain ⟨one, inside, pinned, least⟩ := pinnedDial_acceptable printed acceptable
    obtain ⟨two, inside', pinned', least'⟩ :=
      pinnedDial_acceptable (printed.transfer same) (acceptable.transfer same)
    have order : addressOrder one = addressOrder two :=
      le_antisymm (least two ((same two).mpr inside')) (least' one ((same one).mp inside))
    have text := printed.once one inside two ((same two).mpr inside') (ip_of_addressOrder order)
    left
    refine ⟨_, pinned, ?_⟩
    rw [pinned', dialText, dialText, text]
  · obtain ⟨failed, refused⟩ := pinnedDial_unacceptable acceptable
    have elsewhere : ¬ Acceptable allowPrivate (second.lookup host port).addresses :=
      fun other => acceptable (other.transfer same.symm)
    obtain ⟨failed', refused'⟩ := pinnedDial_unacceptable elsewhere
    exact .inr ⟨failed, failed', refused, refused'⟩

end Order

end CustomDomain
