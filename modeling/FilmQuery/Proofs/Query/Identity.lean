/-
# Fragments are told apart

The identifier of a fragment names the rule, the reading and the first place that it was made of
(`Table.id_of_mem_fragments`).  Fragments of one reading share no place, so no two of them have the
same identifier (`Table.nodup_ids`), and fragments of different readings never do
(`Table.id_ne_of_readings`).
-/
import FilmQuery.Proofs.Query.Partition

namespace FilmQuery

open PlacedText

theorem id_of_mem_readRules {run index : Nat} {rules : List Rule} {text : PlacedText} {f : Fragment}
    (mem : f ∈ (readRules run index rules text).fragments) :
    ∃ k, f.id = .made f.kind k run (f.offsets.head?.getD 0) := by
  obtain ⟨rule, _, k, left, m, made⟩ := exists_claim_of_mem_readRules mem
  obtain ⟨_, _, _, id⟩ := Rule.eq_of_claim? made
  rw [(Rule.said_of_claim? made).1]
  exact ⟨k, id⟩

namespace Table

variable {table : Table} {run : Nat} {query : Json} {f : Fragment}

/-- What is found in a query is found in a text. -/
theorem exists_text_of_mem_fragments (mem : f ∈ table.fragments run query) :
    ∃ text, query = .str text ∧ f ∈ (table.read run text.toList).fragments := by
  cases query with
  | str text => exact ⟨text, rfl, mem⟩
  | _ => cases mem

/-- A fragment is known by its kind, its rule, its reading and its first place. -/
theorem id_of_mem_fragments (mem : f ∈ table.fragments run query) :
    ∃ k, f.id = .made f.kind k run (f.offsets.head?.getD 0) := by
  obtain ⟨text, _, inText⟩ := exists_text_of_mem_fragments mem
  unfold Table.read at inText
  split at inText
  · cases inText
  · exact id_of_mem_readRules inText

/-- Fragments of different readings have different identifiers. -/
theorem id_ne_of_readings {other : Nat} {later : Json} {g : Fragment} (apart : run ≠ other)
    (mem : f ∈ table.fragments run query) (memLater : g ∈ table.fragments other later) :
    f.id ≠ g.id := by
  obtain ⟨j, idF⟩ := id_of_mem_fragments mem
  obtain ⟨k, idG⟩ := id_of_mem_fragments memLater
  rw [idF, idG]
  intro same
  exact apart (FragmentId.made.inj same).2.2.1

/-- No two fragments of one reading have the same identifier: each has its first place for
itself. -/
theorem nodup_ids (table : Table) (run : Nat) (query : Json) :
    ((table.fragments run query).map Fragment.id).Nodup := by
  cases query with
  | str text =>
      have accounts := table.read_accounts run text.toList
      refine List.pairwise_map.mpr (accounts.disjoint.imp_of_mem ?_)
      intro f g memF memG disjoint same
      have ofQuery {h : Fragment} (mem : h ∈ table.fragments run (.str text)) :=
        id_of_mem_fragments mem
      obtain ⟨j, idF⟩ := ofQuery memF
      obtain ⟨k, idG⟩ := ofQuery memG
      obtain ⟨first, rest, offsetsF⟩ :=
        List.exists_cons_of_ne_nil (accounts.standsOn f memF).query.1
      obtain ⟨second, others, offsetsG⟩ :=
        List.exists_cons_of_ne_nil (accounts.standsOn g memG).query.1
      rw [idF, idG, offsetsF, offsetsG] at same
      have place : first = second := (FragmentId.made.inj same).2.2.2
      rw [offsetsF, offsetsG, place] at disjoint
      exact disjoint List.mem_cons_self List.mem_cons_self
  | _ => exact List.nodup_nil

end Table

end FilmQuery
