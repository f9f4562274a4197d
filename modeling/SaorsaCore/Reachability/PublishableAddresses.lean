import SaorsaCore.Reachability.Observers

/-!
# The addresses a node publishes for itself

The node keeps pinned direct addresses, unverified ones and the address of its relay.  An
address moves between the three as it is observed, proven or allocated, and the oldest
entry of a full list gives way to a new one.  The three stay disjoint, so that the list of
all addresses is the relay, the direct and the unverified addresses in a row.
-/

namespace SaorsaCore.Reachability

open List ExternalAddresses Option List.Sublist

namespace ExternalAddresses

def new : ExternalAddresses := { direct := [], unverified := [], relay := none }

def allAddresses (external : ExternalAddresses) : List SocketAddr :=
  external.relay.toList ++ (external.direct.filter fun addr => some addr ≠ external.relay) ++
    external.unverified.filter fun addr =>
      some addr ≠ external.relay ∧ addr ∉ external.direct

/-- The relay and both lists in a row. -/
def entries (external : ExternalAddresses) : List SocketAddr :=
  external.relay.toList ++ external.direct ++ external.unverified

/-- A call that changes the addresses. -/
inductive Op where
  | pinDirect (addr : SocketAddr)
  | recordUnverified (addr : SocketAddr)
  | setRelay (addr : SocketAddr)
  | clearRelay
  deriving DecidableEq, Repr

section Runs

variable (normalize : SocketAddr → SocketAddr)

def Op.apply (external : ExternalAddresses) : Op → ExternalAddresses
  | .pinDirect addr => (external.pinDirect normalize addr).1
  | .recordUnverified addr => (external.recordUnverified normalize addr).1
  | .setRelay addr => external.setRelay normalize addr
  | .clearRelay => external.clearRelay

def run (external : ExternalAddresses) (ops : List Op) : ExternalAddresses :=
  ops.foldl (Op.apply normalize) external

/-- No address is listed twice, in one list or in two, all are normalized, and neither
list exceeds its limit. -/
structure Separated (external : ExternalAddresses) : Prop where
  nodup : external.entries.Nodup
  normalized : ∀ addr ∈ external.entries, normalize addr = addr
  direct_length : external.direct.length ≤ maxDirectAddresses
  unverified_length : external.unverified.length ≤ maxUnverifiedAddresses

end Runs

variable {normalize : SocketAddr → SocketAddr} {external after : ExternalAddresses}
  {addr : SocketAddr}

/-! ## One call -/

/-- A full list makes room for one entry. -/
theorem makeRoom {A : Type*} {limit : ℕ} {listed : List A} (hpositive : 0 < limit)
    (hlength : listed.length ≤ limit) :
    (if listed.length ≥ limit then listed.tail else listed).length < limit := by
  split
  · rw [length_tail]
    omega
  · omega

theorem makeRoom_sublist {A : Type*} (limit : ℕ) (listed : List A) :
    (if listed.length ≥ limit then listed.tail else listed).Sublist listed := by
  split
  · exact tail_sublist listed
  · exact refl listed

theorem not_mem_entries (hrelay : some addr ≠ external.relay)
    (hdirect : addr ∉ external.direct) (hunverified : addr ∉ external.unverified) :
    addr ∉ external.entries := by
  simp only [entries, mem_append, mem_toList, not_or]
  exact ⟨⟨hrelay.symm, hdirect⟩, hunverified⟩

theorem nonRelay_sublist (external : ExternalAddresses) :
    (external.direct ++ external.unverified).Sublist external.entries := by
  rw [entries, append_assoc]
  exact sublist_append_right _ _

section

variable (hseparated : external.Separated normalize)
include hseparated

/-- One address is added to some of the entries. -/
theorem Separated.add {kept : List SocketAddr}
    (hkept : kept.Sublist external.entries) (hperm : after.entries.Perm (addr :: kept))
    (hnew : addr ∉ kept) (hnormalized : normalize addr = addr)
    (hdirect : after.direct.length ≤ maxDirectAddresses)
    (hunverified : after.unverified.length ≤ maxUnverifiedAddresses) :
    after.Separated normalize where
  nodup := hperm.nodup_iff.mpr (List.nodup_cons.mpr ⟨hnew, hseparated.nodup.sublist hkept⟩)
  normalized other hother := by
    rcases mem_cons.mp (hperm.mem_iff.mp hother) with rfl | hmem
    · exact hnormalized
    · exact hseparated.normalized other (hkept.subset hmem)
  direct_length := hdirect
  unverified_length := hunverified

section

variable (hnormalized : normalize (normalize addr) = normalize addr)
include hnormalized

theorem Separated.pinDirect : (external.pinDirect normalize addr).1.Separated normalize := by
  simp only [ExternalAddresses.pinDirect]
  split
  · exact hseparated
  · next hnew =>
      obtain ⟨hrelay, hdirect⟩ := not_or.mp hnew
      have hroom := makeRoom (by decide : 0 < maxDirectAddresses) hseparated.direct_length
      have hsublist := makeRoom_sublist maxDirectAddresses external.direct
      set kept := if external.direct.length ≥ maxDirectAddresses
        then external.direct.tail else external.direct
      set others := external.unverified.filter fun unverified => unverified != normalize addr
        with hothers
      have hout : normalize addr ∉ external.relay.toList ++ kept ++ others := by
        rw [hothers]
        simp only [mem_append, mem_toList, mem_filter, bne_self_eq_false,
          Bool.false_eq_true, and_false, or_false, not_or]
        exact ⟨fun heq => hrelay heq.symm, fun hmem => hdirect (hsublist.subset hmem)⟩
      refine hseparated.add (((refl _).append hsublist).append
        filter_sublist) ?_ hout hnormalized ?_ ?_
      · rw [entries, ← append_assoc, append_assoc _ [normalize addr]]
        exact perm_middle
      · rw [length_append, length_singleton]
        exact hroom
      · exact (length_filter_le _ _).trans hseparated.unverified_length

theorem Separated.recordUnverified :
    (external.recordUnverified normalize addr).1.Separated normalize := by
  simp only [ExternalAddresses.recordUnverified]
  split
  · exact hseparated
  · next hnew =>
      obtain ⟨hrelay, hdirect⟩ := not_or.mp hnew
      split
      · next hmem =>
          -- The address moves to the end of its list.
          have hmoved : (external.unverified.erase (normalize addr) ++ [normalize addr]).Perm
              external.unverified :=
            perm_append_comm.trans (perm_cons_erase hmem).symm
          have hentries : entries { external with
              unverified := external.unverified.erase (normalize addr) ++
                [normalize addr] } |>.Perm external.entries := hmoved.append_left _
          refine ⟨hentries.nodup_iff.mpr hseparated.nodup, ?_, hseparated.direct_length, ?_⟩
          · intro other hother
            exact hseparated.normalized other (hentries.mem_iff.mp hother)
          · rw [hmoved.length_eq]
            exact hseparated.unverified_length
      · next hunverified =>
          have hroom := makeRoom (by decide : 0 < maxUnverifiedAddresses)
            hseparated.unverified_length
          have hsublist := (refl (external.relay.toList ++ external.direct)).append
            (makeRoom_sublist maxUnverifiedAddresses external.unverified)
          set kept := if external.unverified.length ≥ maxUnverifiedAddresses
            then external.unverified.tail else external.unverified
          have hout : normalize addr ∉ external.relay.toList ++ external.direct ++ kept :=
            fun hmem => not_mem_entries hrelay hdirect hunverified (hsublist.subset hmem)
          refine hseparated.add hsublist ?_ hout hnormalized hseparated.direct_length ?_
          · rw [entries, ← append_assoc]
            exact perm_append_singleton _ _
          · rw [length_append, length_singleton]
            exact hroom

theorem Separated.setRelay : (external.setRelay normalize addr).Separated normalize := by
  have hkept : ((external.direct.filter fun direct => direct != normalize addr) ++
      external.unverified.filter fun unverified => unverified != normalize addr).Sublist
        external.entries :=
    (filter_sublist.append filter_sublist).trans (nonRelay_sublist external)
  have hentries : (external.setRelay normalize addr).entries.Perm (normalize addr ::
      ((external.direct.filter fun direct => direct != normalize addr) ++
        external.unverified.filter fun unverified => unverified != normalize addr)) :=
    List.Perm.refl _
  apply hseparated.add hkept hentries
  · simp
  · exact hnormalized
  · exact (length_filter_le _ _).trans hseparated.direct_length
  · exact (length_filter_le _ _).trans hseparated.unverified_length

end

theorem Separated.clearRelay : external.clearRelay.Separated normalize := by
  have hsublist : external.clearRelay.entries.Sublist external.entries :=
    nonRelay_sublist external
  exact ⟨hseparated.nodup.sublist hsublist,
    fun addr hmem => hseparated.normalized addr (hsublist.subset hmem),
    hseparated.direct_length, hseparated.unverified_length⟩

end

/-! ## Whole histories -/

theorem Op.apply_separated (hidempotent : ∀ addr, normalize (normalize addr) = normalize addr)
    (op : Op) (hseparated : external.Separated normalize) :
    (op.apply normalize external).Separated normalize := by
  cases op with
  | pinDirect addr => exact hseparated.pinDirect (hidempotent addr)
  | recordUnverified addr => exact hseparated.recordUnverified (hidempotent addr)
  | setRelay addr => exact hseparated.setRelay (hidempotent addr)
  | clearRelay => exact hseparated.clearRelay

theorem run_separated (hidempotent : ∀ addr, normalize (normalize addr) = normalize addr)
    (ops : List Op) : (new.run normalize ops).Separated normalize := by
  refine foldlRecOn ops _ ?_ ?_
  · exact ⟨nodup_nil, by simp [entries, new], Nat.zero_le _, Nat.zero_le _⟩
  · intro external hseparated op _
    exact op.apply_separated hidempotent hseparated

/-! ## The published list -/

theorem mem_allAddresses_iff : addr ∈ external.allAddresses ↔ addr ∈ external.entries := by
  simp only [allAddresses, entries, mem_append, mem_filter, mem_toList, decide_eq_true_eq]
  grind

/-- Nothing has to be filtered out of the list. -/
theorem Separated.allAddresses_eq (hseparated : external.Separated normalize) :
    external.allAddresses = external.entries := by
  obtain ⟨hfront, -, hback⟩ := nodup_append.mp hseparated.nodup
  obtain ⟨-, -, hrelay⟩ := nodup_append.mp hfront
  have hdirect : (external.direct.filter fun addr => some addr ≠ external.relay) =
      external.direct := by
    apply filter_eq_self.mpr
    intro addr hmem
    rw [decide_eq_true_eq]
    intro heq
    exact hrelay addr (mem_toList.mpr heq.symm) addr hmem rfl
  have hunverified : (external.unverified.filter fun addr =>
      some addr ≠ external.relay ∧ addr ∉ external.direct) = external.unverified := by
    apply filter_eq_self.mpr
    intro addr hmem
    rw [decide_eq_true_eq]
    constructor
    · intro heq
      exact hback addr (mem_append_left _ (mem_toList.mpr heq.symm)) addr hmem rfl
    · intro hpinned
      exact hback addr (mem_append_right _ hpinned) addr hmem rfl
  rw [allAddresses, hdirect, hunverified, entries]

/-- The answer of `record_unverified` is whether the published set has changed. -/
theorem recordUnverified_changes_iff (external : ExternalAddresses) (addr : SocketAddr) :
    (external.recordUnverified normalize addr).2 = true ↔
      ¬∀ other, other ∈ (external.recordUnverified normalize addr).1.allAddresses ↔
        other ∈ external.allAddresses := by
  simp only [mem_allAddresses_iff, recordUnverified]
  split
  · simp
  · next hnew =>
      obtain ⟨hrelay, hdirect⟩ := not_or.mp hnew
      split
      · next hmem =>
          have hmoved : (external.unverified.erase (normalize addr) ++ [normalize addr]).Perm
              external.unverified :=
            perm_append_comm.trans (perm_cons_erase hmem).symm
          apply iff_of_false Bool.false_ne_true
          rw [not_not]
          intro other
          exact (hmoved.append_left _).mem_iff
      · next hunverified =>
          apply iff_of_true rfl
          intro hsame
          apply not_mem_entries hrelay hdirect hunverified
          apply (hsame (normalize addr)).mp
          simp [entries]

end ExternalAddresses

/-- What holds of the addresses after any history of calls. -/
structure ExternalAddresses.Published (normalize : SocketAddr → SocketAddr)
    (external : ExternalAddresses) : Prop where
  direct_nodup : external.direct.Nodup
  unverified_nodup : external.unverified.Nodup
  direct_unverified : ∀ addr ∈ external.direct, addr ∉ external.unverified
  relay_separate : ∀ relay, external.relay = some relay →
    relay ∉ external.direct ∧ relay ∉ external.unverified
  normalized : ∀ addr, addr ∈ external.direct ∨ addr ∈ external.unverified → normalize addr = addr
  direct_length : external.direct.length ≤ 16
  unverified_length : external.unverified.length ≤ 16
  all_nodup : external.allAddresses.Nodup
  relay_first : ∀ relay, external.relay = some relay → external.allAddresses.head? = some relay
  unverified_changes : ∀ addr, (external.recordUnverified normalize addr).2 = true ↔
    ¬∀ other, other ∈ (external.recordUnverified normalize addr).1.allAddresses ↔
      other ∈ external.allAddresses

theorem ExternalAddresses.run_published {normalize : SocketAddr → SocketAddr}
    (hidempotent : ∀ addr, normalize (normalize addr) = normalize addr)
    (ops : List ExternalAddresses.Op) :
    (ExternalAddresses.new.run normalize ops).Published normalize := by
  have hseparated := run_separated hidempotent ops
  obtain ⟨hfront, hunverified, hback⟩ := nodup_append.mp hseparated.nodup
  obtain ⟨-, hdirect, hrelay⟩ := nodup_append.mp hfront
  constructor
  · exact hdirect
  · exact hunverified
  · intro addr hpinned hmem
    exact hback addr (mem_append_right _ hpinned) addr hmem rfl
  · intro relay heq
    have hmem := mem_toList.mpr heq
    exact ⟨fun hpinned => hrelay relay hmem relay hpinned rfl,
      fun hseen => hback relay (mem_append_left _ hmem) relay hseen rfl⟩
  · rintro addr (hpinned | hseen)
    · exact hseparated.normalized addr (mem_append_left _ (mem_append_right _ hpinned))
    · exact hseparated.normalized addr (mem_append_right _ hseen)
  · exact hseparated.direct_length
  · exact hseparated.unverified_length
  · rw [hseparated.allAddresses_eq]
    exact hseparated.nodup
  · intro relay heq
    rw [hseparated.allAddresses_eq, entries, heq]
    rfl
  · exact recordUnverified_changes_iff _

/-! A proven address in the form of an IPv4-mapped one, an unverified one, and the first one
again as that of a relay. -/

section Example

private def unmapped : SocketAddr → SocketAddr
  | .v4 ip port => .v4 ip port
  | .v6 ip port flowinfo scopeId =>
    match ip.toIpv4Mapped with
    | some ip => .v4 ip port
    | none => .v6 ip port flowinfo scopeId

private theorem unmapped_unmapped (addr : SocketAddr) :
    unmapped (unmapped addr) = unmapped addr := by
  cases addr with
  | v4 ip port => rfl
  | v6 ip port flowinfo scopeId =>
    cases hmapped : ip.toIpv4Mapped <;> simp [unmapped, hmapped]

private def relayedHistory : List ExternalAddresses.Op :=
  [.pinDirect (.v6 0xffffcb007101 9000 0 0), .recordUnverified (.v4 0xcb007202 9001),
    .setRelay (.v4 0xcb007101 9000)]

theorem relayedHistory_published :
    (ExternalAddresses.new.run unmapped relayedHistory).allAddresses =
        [.v4 0xcb007101 9000, .v4 0xcb007202 9001] ∧
      (ExternalAddresses.new.run unmapped relayedHistory).Published unmapped :=
  ⟨by decide +kernel, run_published unmapped_unmapped relayedHistory⟩

end Example

end SaorsaCore.Reachability
