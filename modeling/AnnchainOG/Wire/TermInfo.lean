import AnnchainOG.Wire.Records

/-!
# Comparing term changes

The signatures of both term changes are collected in maps, of which the first has to be part of the
second.
-/

namespace AnnchainOG.Wire

open List

/-- What is compared of a term change without nil entries among its signatures. -/
structure TermInfo where
  termID : UInt64
  pkBls : Bytes
  sigSet : List SigSet

variable (tc : TermInfo)

namespace TermInfo

def keys : List Bytes := tc.sigSet.map (·.publicKey)

def tcMap : GoMap Bytes Bytes :=
  GoMap.setAll ∅ (tc.sigSet.map fun ss => (ss.publicKey, ss.signature))

def isSameTermInfo (tc ctc : TermInfo) : Bool :=
  tc.termID = ctc.termID && tc.pkBls = ctc.pkBls && tc.sigSet.length = ctc.sigSet.length &&
    tc.keys.all fun pk => ctc.tcMap.get? pk = tc.tcMap.get? pk

variable {tc ctc third : TermInfo} {pk : Bytes}

theorem isSameTermInfo_iff : tc.isSameTermInfo ctc = true ↔ tc.termID = ctc.termID ∧
    tc.pkBls = ctc.pkBls ∧ tc.sigSet.length = ctc.sigSet.length ∧
      ∀ pk ∈ tc.keys, ctc.tcMap.get? pk = tc.tcMap.get? pk := by
  simp [isSameTermInfo, and_assoc]

theorem mem_keys_iff : pk ∈ tc.keys ↔ ∃ signature, tc.tcMap.get? pk = some signature := by
  rcases GoMap.get?_setAll ∅ (tc.sigSet.map fun ss => (ss.publicKey, ss.signature)) pk with
    ⟨signature, member, found⟩ | ⟨absent, found⟩
  · obtain ⟨ss, listed, same⟩ := mem_map.mp member
    cases same
    exact ⟨fun _ => ⟨_, found⟩, fun _ => mem_map_of_mem listed⟩
  · refine ⟨fun member => ?_, fun ⟨signature, isFound⟩ => ?_⟩
    · obtain ⟨ss, listed, rfl⟩ := mem_map.mp member
      exact absurd (mem_map_of_mem listed) (absent ss.signature)
    · rw [tcMap, found] at isFound
      cases isFound

theorem keys_subset (same : tc.isSameTermInfo ctc = true) : tc.keys ⊆ ctc.keys := by
  intro pk member
  obtain ⟨signature, found⟩ := mem_keys_iff.mp member
  have other := (isSameTermInfo_iff.mp same).2.2.2 pk member
  exact mem_keys_iff.mpr ⟨signature, other.trans found⟩

theorem isSameTermInfo_trans (first : tc.isSameTermInfo ctc = true)
    (second : ctc.isSameTermInfo third = true) : tc.isSameTermInfo third = true := by
  obtain ⟨termIDs, pks, lengths, signatures⟩ := isSameTermInfo_iff.mp first
  obtain ⟨laterIDs, laterPks, laterLengths, laterSignatures⟩ := isSameTermInfo_iff.mp second
  refine isSameTermInfo_iff.mpr ⟨termIDs.trans laterIDs, pks.trans laterPks,
    lengths.trans laterLengths, fun pk member => ?_⟩
  exact (laterSignatures pk (keys_subset first member)).trans (signatures pk member)

theorem isSameTermInfo_symm (distinct : tc.keys.Nodup) (same : tc.isSameTermInfo ctc = true) :
    ctc.isSameTermInfo tc = true := by
  obtain ⟨termIDs, pks, lengths, signatures⟩ := isSameTermInfo_iff.mp same
  have sameKeys : tc.keys.Perm ctc.keys := by
    refine (subperm_of_subset distinct (keys_subset same)).perm_of_length_le ?_
    rw [keys, keys, length_map, length_map, lengths]
  refine isSameTermInfo_iff.mpr ⟨termIDs.symm, pks.symm, lengths.symm, fun pk member => ?_⟩
  exact (signatures pk (sameKeys.mem_iff.mpr member)).symm

theorem tcMap_perm {order : List SigSet} (distinct : tc.keys.Nodup) (perm : order.Perm tc.sigSet) :
    ({ tc with sigSet := order } : TermInfo).tcMap = tc.tcMap := by
  refine (GoMap.setAll_perm ∅ (perm.symm.map _) fun pk signature other isFirst isSecond => ?_).symm
  obtain ⟨first, inFirst, same⟩ := mem_map.mp isFirst
  cases same
  obtain ⟨second, inSecond, sameOther⟩ := mem_map.mp isSecond
  obtain ⟨samePk, rfl⟩ := Prod.mk.inj sameOther
  rw [inj_on_of_nodup_map distinct inFirst inSecond samePk.symm]

/-- Every key of a term change, and one more instead of the repetitions. -/
def larger (tc : TermInfo) : TermInfo :=
  let once := tc.keys.dedup
  { tc with
    sigSet := once.map (fun pk => ⟨pk, (tc.tcMap.get? pk).getD []⟩) ++
      List.replicate (tc.sigSet.length - once.length) ⟨0 :: tc.keys.flatten, []⟩ }

theorem fresh_not_mem : 0 :: tc.keys.flatten ∉ tc.keys := by
  intro member
  exact Nat.not_succ_le_self _ (sublist_flatten_of_mem member).length_le

theorem isSameTermInfo_larger : tc.isSameTermInfo tc.larger = true := by
  refine isSameTermInfo_iff.mpr ⟨rfl, rfl, ?_, fun pk member => ?_⟩
  · have shorter := (dedup_sublist tc.keys).length_le
    rw [keys, length_map] at shorter
    simp only [larger, keys, length_append, length_map, length_replicate]
    omega
  obtain ⟨signature, found⟩ := mem_keys_iff.mp member
  rcases GoMap.get?_setAll ∅ (tc.larger.sigSet.map fun ss => (ss.publicKey, ss.signature)) pk with
    ⟨other, listed, isOther⟩ | ⟨absent, -⟩
  · obtain ⟨ss, inLarger, same⟩ := mem_map.mp listed
    cases same
    rcases mem_append.mp inLarger with inOnce | isFresh
    · obtain ⟨pk, -, rfl⟩ := mem_map.mp inOnce
      rw [tcMap, isOther, found, Option.getD_some]
    · rw [eq_of_mem_replicate isFresh] at member
      exact absurd member tc.fresh_not_mem
  · have listed : ⟨pk, (tc.tcMap.get? pk).getD []⟩ ∈ tc.larger.sigSet :=
      mem_append_left _ (mem_map_of_mem (mem_dedup.mpr member))
    exact absurd (mem_map.mpr ⟨_, listed, rfl⟩) (absent _)

theorem nodup_of_symm (symm : tc.larger.isSameTermInfo tc = true) : tc.keys.Nodup := by
  by_contra repeated
  have fewer : tc.keys.dedup.length < tc.sigSet.length := by
    refine lt_of_le_of_ne ?_ fun same => repeated ?_
    · exact (dedup_sublist tc.keys).length_le.trans_eq (length_map _)
    · exact dedup_eq_self.mp
        ((dedup_sublist tc.keys).eq_of_length (same.trans (length_map _).symm))
  have listed : ⟨0 :: tc.keys.flatten, []⟩ ∈ tc.larger.sigSet :=
    mem_append_right _ (mem_replicate.mpr ⟨(Nat.sub_pos_of_lt fewer).ne', rfl⟩)
  exact tc.fresh_not_mem (keys_subset symm (mem_map.mpr ⟨_, listed, rfl⟩))

end TermInfo

end AnnchainOG.Wire
