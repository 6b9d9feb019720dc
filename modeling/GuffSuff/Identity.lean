import GuffSuff.Events
import GuffSuff.Lineage

/-! The invariant of the identity tables and the writes that keep it. -/

namespace GuffSuff

open ReadCommitted SessionService

/-- Unique columns, references and token chains of the identity tables. -/
structure Db.Identity (db : Db) : Prop where
  sessions : (keys db.sessions).Nodup
  families : (keys db.refreshTokenFamilies).Nodup
  tokens : (keys db.refreshTokens).Nodup
  hashes : (db.refreshTokens.map RefreshToken.tokenVerifierHash).Nodup
  familyId : ∀ t ∈ db.refreshTokens, t.familyId ∈ keys db.refreshTokenFamilies
  lineage : ∀ f ∈ keys db.refreshTokenFamilies, Chain none (db.tokensIn f)
  revokedParent : ∀ s ∈ db.refreshTokens, ∀ t ∈ db.refreshTokens, t.parentTokenId = some s.id →
    t.isRevoked = true → s.isRevoked = true

namespace Db.Identity
variable {db : Db}

theorem revokeSessions (h : db.Identity) (ids : List Uuid) (now : Nat) :
    ((Write.revokeSessions ids now).apply db).Identity :=
  { h with sessions := by simpa [Write.apply] using h.sessions }

theorem compromiseFamilies (h : db.Identity) (ids : List Uuid) (now : Nat) :
    ((Write.compromiseFamilies ids now).apply db).Identity :=
  { h with
    families := by simpa [Write.apply] using h.families
    familyId := by simpa [Write.apply] using h.familyId
    lineage := by
      intro f hf
      exact h.lineage f (by simpa [Write.apply] using hf) }

theorem revokeRefreshTokens (h : db.Identity) {ids : List Uuid} (hc : db.ParentClosed ids)
    (now : Nat) : ((Write.revokeRefreshTokens ids now).apply db).Identity where
  sessions := h.sessions
  families := h.families
  tokens := by simpa [Write.apply] using h.tokens
  hashes := by
    have hm := map_updateRows db.refreshTokens ids (RefreshToken.revoke now)
      (g := RefreshToken.tokenVerifierHash) (fun _ => rfl)
    simpa only [Write.apply, hm] using h.hashes
  familyId := by
    intro t ht
    obtain ⟨s, hs, rfl⟩ := mem_updateRows.mp ht
    have hf : (if (Keyed.key s : Uuid) ∈ ids then s.revoke now else s).familyId = s.familyId := by
      split <;> rfl
    rw [hf]
    exact h.familyId s hs
  lineage := by
    intro f hf
    have hfilter : ((Write.revokeRefreshTokens ids now).apply db).tokensIn f =
        updateRows (db.tokensIn f) ids (RefreshToken.revoke now) :=
      filter_updateRows _ _ _ fun _ => rfl
    rw [hfilter]
    exact (h.lineage f hf).updateRevoked ids now
  revokedParent := by
    intro s' hs' t' ht' hp hr
    obtain ⟨s, hs, rfl⟩ := mem_updateRows.mp hs'
    obtain ⟨t, ht, rfl⟩ := mem_updateRows.mp ht'
    have hst : t.parentTokenId = some s.id := by
      revert hp
      split <;> split <;> exact id
    by_cases hsi : s.id ∈ ids
    · simp [hsi, RefreshToken.revoke]
    · by_cases hti : t.id ∈ ids
      · exact absurd (hc t ht hti s.id hst) hsi
      · simp only [RefreshToken.key_eq, hsi, hti, if_false] at hr ⊢
        exact h.revokedParent s hs t ht hst hr

theorem insertSession (h : db.Identity) {s : Session} (hs : s.id ∉ keys db.sessions) :
    ((Write.insertSession s).apply db).Identity :=
  { h with
    sessions := by
      simp only [Write.apply, keys_append, keys_singleton]
      exact h.sessions.append (List.nodup_singleton _) (by simpa using hs) }

theorem tokensIn_of_not_mem (h : db.Identity) {f : Uuid} (hf : f ∉ keys db.refreshTokenFamilies) :
    db.tokensIn f = [] := by
  apply List.filter_eq_nil_iff.mpr
  intro t ht he
  simp only [decide_eq_true_eq] at he
  exact hf (he ▸ h.familyId t ht)

theorem parent_mem (h : db.Identity) {t : RefreshToken} (ht : t ∈ db.refreshTokens) {p : Uuid}
    (hp : t.parentTokenId = some p) : ∃ s ∈ db.refreshTokens, s.id = p ∧ s.familyId = t.familyId ∧
      s.isRotated = true ∧ s.replacementTokenId = some t.id := by
  have hc := h.lineage t.familyId (h.familyId t ht)
  rcases hc.parent (Db.mem_tokensIn.mpr ⟨ht, rfl⟩) with ⟨_, hn⟩ | ⟨s, hs, hsp, hr, hn⟩
  · rw [hp] at hn
    exact absurd hn (by simp)
  · rw [hp] at hsp
    obtain ⟨hs, hf⟩ := Db.mem_tokensIn.mp hs
    exact ⟨s, hs, (Option.some.inj hsp).symm, hf, hr, hn⟩

theorem replacement (h : db.Identity) {t : RefreshToken} (ht : t ∈ db.refreshTokens)
    (hr : t.isRotated = true) (hv : t.isRevoked = false) :
    ∃ i, t.replacementTokenId = some i ∧ db.hasUnrevokedToken i = true := by
  have hc := h.lineage t.familyId (h.familyId t ht)
  obtain ⟨u, hu, hn, hp⟩ := hc.replacement_of_rotated (Db.mem_tokensIn.mpr ⟨ht, rfl⟩) hr
  have hum := (Db.mem_tokensIn.mp hu).1
  refine ⟨u.id, hn, ?_⟩
  have huv : u.isRevoked = false := by
    by_contra hne
    have htv := h.revokedParent t ht u hum hp (Bool.eq_true_of_not_eq_false hne)
    rw [hv] at htv
    exact absurd htv (by decide)
  exact List.any_eq_true.mpr ⟨u, hum, by simp [huv]⟩

theorem hash_unique (h : db.Identity) {s t : RefreshToken} (hs : s ∈ db.refreshTokens)
    (ht : t ∈ db.refreshTokens) (he : s.tokenVerifierHash = t.tokenVerifierHash) : s = t :=
  List.inj_on_of_nodup_map h.hashes hs ht he

theorem hashes_append (h : db.Identity) {t : RefreshToken}
    (ht : db.hashTaken t.tokenVerifierHash = false) :
    ((db.refreshTokens ++ [t]).map RefreshToken.tokenVerifierHash).Nodup := by
  rw [List.map_append]
  refine h.hashes.append (List.nodup_singleton _) ?_
  have hne : ∀ s ∈ db.refreshTokens, s.tokenVerifierHash ≠ t.tokenVerifierHash := by
    simpa [Db.hashTaken] using ht
  simpa using hne

theorem insertFamily (h : db.Identity) {f : RefreshTokenFamily} {t : RefreshToken}
    (hf : f.id ∉ keys db.refreshTokenFamilies) (ht : t.id ∉ keys db.refreshTokens)
    (hh : db.hashTaken t.tokenVerifierHash = false) (htf : t.familyId = f.id)
    (hp : t.parentTokenId = none) (hr : t.isRotated = false) (hn : t.replacementTokenId = none) :
    (applyAll [.insertRefreshTokenFamily f, .insertRefreshToken t] db).Identity where
  sessions := h.sessions
  families := by
    simp only [applyAll_cons, applyAll_nil, Write.apply, keys_append, keys_singleton]
    exact h.families.append (List.nodup_singleton _) (by simpa using hf)
  tokens := by
    simp only [applyAll_cons, applyAll_nil, Write.apply, keys_append, keys_singleton]
    exact h.tokens.append (List.nodup_singleton _) (by simpa using ht)
  hashes := h.hashes_append hh
  familyId := by
    intro s hs
    simp only [applyAll_cons, applyAll_nil, Write.apply, keys_append, keys_singleton,
      List.mem_append, List.mem_singleton] at hs ⊢
    rcases hs with hs | rfl
    · exact .inl (h.familyId s hs)
    · exact .inr htf
  lineage := by
    intro g hg
    have hsplit : (applyAll [.insertRefreshTokenFamily f, .insertRefreshToken t] db).tokensIn g =
        db.tokensIn g ++ [t].filter (fun s => s.familyId = g) := List.filter_append _ _
    rw [hsplit]
    by_cases hgf : g = f.id
    · subst hgf
      rw [h.tokensIn_of_not_mem hf]
      simpa [htf] using (show Chain none [t] from ⟨hp, hr, hn⟩)
    · have hold : g ∈ keys db.refreshTokenFamilies := by
        simpa [applyAll_cons, Write.apply, hgf] using hg
      simpa [htf, Ne.symm hgf] using h.lineage g hold
  revokedParent := by
    intro s hs u hu hpu hru
    simp only [applyAll_cons, applyAll_nil, Write.apply, List.mem_append, List.mem_singleton] at hs hu
    rcases hu with hu | rfl
    · rcases hs with hs | rfl
      · exact h.revokedParent s hs u hu hpu hru
      · obtain ⟨v, hv, hvid, _⟩ := h.parent_mem hu hpu
        exact absurd (hvid ▸ key_mem_keys hv) ht
    · rw [hp] at hpu
      exact absurd hpu (by simp)

theorem rotate (h : db.Identity) (old child : RefreshToken)
    (hold : old ∈ db.refreshTokens) (hr : old.isRotated = false)
    (hid : child.id ∉ keys db.refreshTokens) (hh : db.hashTaken child.tokenVerifierHash = false)
    (hf : child.familyId = old.familyId) (hp : child.parentTokenId = some old.id)
    (hc : child.isRotated = false) (hn : child.replacementTokenId = none)
    (hv : child.isRevoked = false) (now : Nat) :
    (applyAll [.rotateRefreshToken old.id child.id now, .insertRefreshToken child] db).Identity where
  sessions := h.sessions
  families := h.families
  tokens := by
    simp only [applyAll_cons, applyAll_nil, Write.apply, keys_append, keys_singleton,
      RefreshToken.keys_rotate]
    exact h.tokens.append (List.nodup_singleton _) (by simpa using hid)
  hashes := by
    have hm := map_updateRows db.refreshTokens [old.id] (RefreshToken.rotate child.id now)
      (g := RefreshToken.tokenVerifierHash) (fun _ => rfl)
    have happ := h.hashes_append hh
    simp only [applyAll_cons, applyAll_nil, Write.apply, List.map_append, hm] at happ ⊢
    exact happ
  familyId := by
    intro t ht
    simp only [applyAll_cons, applyAll_nil, Write.apply, List.mem_append, List.mem_singleton] at ht ⊢
    rcases ht with ht | rfl
    · obtain ⟨s, hs, rfl⟩ := mem_updateRows.mp ht
      have hsf : (if (Keyed.key s : Uuid) ∈ [old.id] then s.rotate child.id now else s).familyId =
          s.familyId := by split <;> rfl
      rw [hsf]
      exact h.familyId s hs
    · rw [hf]
      exact h.familyId old hold
  lineage := by
    intro g hg
    have hsplit : (applyAll [.rotateRefreshToken old.id child.id now, .insertRefreshToken child]
        db).tokensIn g = updateRows (db.tokensIn g) [old.id] (RefreshToken.rotate child.id now) ++
          [child].filter (fun s => s.familyId = g) := by
      have hu := filter_updateRows db.refreshTokens [old.id] (RefreshToken.rotate child.id now)
        (p := fun s => s.familyId = g) (fun _ => rfl)
      simp only [Db.tokensIn, applyAll_cons, applyAll_nil, Write.apply, List.filter_append, hu]
    have hchain := h.lineage g hg
    rw [hsplit]
    by_cases hgf : old.familyId = g
    · have hcg : child.familyId = g := hf.trans hgf
      have hmem : old ∈ db.tokensIn g := Db.mem_tokensIn.mpr ⟨hold, hgf⟩
      simpa [hcg] using hchain.rotate (Db.keys_tokensIn h.tokens g) hmem hr hp hc hn now
    · have hcg : child.familyId ≠ g := fun he => hgf (hf ▸ he)
      have hdis : updateRows (db.tokensIn g) [old.id] (RefreshToken.rotate child.id now) =
          db.tokensIn g := by
        apply updateRows_of_disjoint
        intro t ht hto
        obtain ⟨htm, htg⟩ := Db.mem_tokensIn.mp ht
        obtain rfl := eq_of_key_eq h.tokens htm hold (List.mem_singleton.mp hto)
        exact hgf htg
      simpa [hcg, hdis] using hchain
  revokedParent := by
    intro s' hs' t' ht' hpt hrt
    simp only [applyAll_cons, applyAll_nil, Write.apply, List.mem_append, List.mem_singleton]
      at hs' ht'
    rcases ht' with ht' | rfl
    · obtain ⟨t, ht, rfl⟩ := mem_updateRows.mp ht'
      have hpt' : t.parentTokenId = some s'.id := by
        revert hpt
        split <;> exact id
      have hrt' : t.isRevoked = true := by
        revert hrt
        split <;> exact id
      rcases hs' with hs' | rfl
      · obtain ⟨s, hs, rfl⟩ := mem_updateRows.mp hs'
        have hsid : (if (Keyed.key s : Uuid) ∈ [old.id] then s.rotate child.id now else s).id =
            s.id := by split <;> rfl
        have hsr : (if (Keyed.key s : Uuid) ∈ [old.id] then s.rotate child.id now else s).isRevoked =
            s.isRevoked := by split <;> rfl
        rw [hsid] at hpt'
        rw [hsr]
        exact h.revokedParent s hs t ht hpt' hrt'
      · obtain ⟨v, hv', hvid, _⟩ := h.parent_mem ht hpt'
        exact absurd (hvid ▸ key_mem_keys hv') hid
    · rw [hv] at hrt
      exact absurd hrt (by decide)

end Db.Identity

end GuffSuff
