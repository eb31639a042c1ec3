import Cadastre.Proofs.Chunk.Count
import Cadastre.Proofs.Layout.Building
/-!
# Cadastre.Proofs.Layout.Fresh

**Clearing air changes nothing**, not even how a chunk is stored: no section comes to be, no palette
grows and no storage is packed anew. Every column is built once, so over a chunk of air each one is
still air when its turn comes. Hence building over such a chunk is building in it
(`Area.buildInto_overwrite_of_air`).
-/

namespace Cadastre

namespace Chunk

theorem foldl_put_air {s : Section} {l : List Nat} (h : ∀ n ∈ l, s.block n = .air) :
    l.foldl (fun s n => s.put n .air) s = s := by
  induction l with
  | nil => rfl
  | cons n rest ih =>
      have hput : s.put n .air = s := if_pos (h n List.mem_cons_self)
      rw [List.foldl_cons, hput]
      exact ih fun n' hn' => h n' (List.mem_cons_of_mem n hn')

theorem clearIn_eq_self {s : Section} {col : Column}
    (h : ∀ j : Fin 16, s.block (col.number j) = .air) : clearIn col s = s := by
  rw [clearIn_eq]
  refine foldl_put_air fun n hn => ?_
  obtain ⟨y, hy, rfl⟩ := List.mem_map.mp hn
  exact h ⟨y, List.mem_range.mp hy⟩

/-- **Clearing a column of air** leaves the chunk as it is, section by section. -/
theorem clear_eq_self {c : Chunk} {col : Column} (h : ∀ y, c.block (col.atHeight y) = .air) :
    c.clear col = c := by
  have hslot (i : Fin 16) : (c.clear col).slot i = c.slot i := by
    rw [slot_clear]
    have hblock (j : Fin 16) := h (height i j)
    simp only [block_atHeight] at hblock
    cases hs : c.slot i with
    | none => rfl
    | some s =>
        rw [hs] at hblock
        rw [Option.map_some, clearIn_eq_self hblock]
  have hsections : (c.clear col).sections = c.sections := by
    ext1 i hi
    exact hslot ⟨i, hi⟩
  exact congrArg (fun sections => ({ c with sections } : Chunk)) hsections

end Chunk

namespace Area

variable {a : Area} {coord : ChunkCoord} {m : Merges} {c : Chunk}

/-- Over a column of air there is nothing to clear. -/
theorem writeColumn_overwrite_of_air {col : Column} (ground : Ground)
    (hair : ∀ y, c.block (col.atHeight y) = .air) :
    a.writeColumn coord .overwrite col ground c = a.writeColumn coord .fresh col ground c := by
  have hclear := Chunk.clearColumn_of_column (Chunk.column_self col) c
  rw [Chunk.clear_eq_self hair] at hclear
  exact Edit.bind_of_ok (f := fun _ => a.writeColumn coord .fresh col ground) hclear

theorem buildIfOwned_overwrite_of_air {col : Column} (g : Grid)
    (hair : ∀ y, c.block (col.atHeight y) = .air) :
    a.buildIfOwned g m coord .overwrite col c = a.buildIfOwned g m coord .fresh col c := by
  obtain ⟨ground, hground⟩ := g.exists_mergedGround (a.isMerged m) (col.worldX coord)
    (col.worldZ coord)
  simp only [buildIfOwned, hground, Edit.liftM_ok_bind]
  split
  · rfl
  split
  · rfl
  simp only [bind, EStateM.bind, writeColumn_overwrite_of_air ground hair]

theorem buildNext_overwrite_of_air {col : Column} (g : Grid) (count : Nat)
    (hair : ∀ y, c.block (col.atHeight y) = .air) :
    a.buildNext g m coord .overwrite count col c = a.buildNext g m coord .fresh count col c := by
  simp only [buildNext, bind, EStateM.bind, buildIfOwned_overwrite_of_air g hair]

/-- Building some columns in turn, each once, where they are still air. -/
theorem buildColumns_overwrite_of_air {g : Grid} (hg : a.grid = .ok g) (m : Merges)
    {cols : List Column} (hcols : cols.Nodup) (count : Nat) (hc : c.Valid)
    (hair : ∀ col ∈ cols, ∀ y, c.block (col.atHeight y) = .air) :
    (cols.foldlM (a.buildNext g m coord .overwrite) count : Edit Chunk Nat) c =
      cols.foldlM (a.buildNext g m coord .fresh) count c := by
  induction cols generalizing count c with
  | nil => rfl
  | cons col rest ih =>
      obtain ⟨hnew, hrest⟩ := List.nodup_cons.mp hcols
      obtain ⟨count', c', hfresh, -, hcovers⟩ := buildNext_ends hg m .fresh count col c
      have hoverwrite := (buildNext_overwrite_of_air g count (hair col List.mem_cons_self)).trans
        hfresh
      -- What was written lies in another column, so the rest is still air.
      have hstill : ∀ col' ∈ rest, ∀ y, c'.block (col'.atHeight y) = .air := by
        intro col' hcol' y
        have hother : col' ∉ [col] := by
          intro hmem
          rw [List.mem_singleton.mp hmem] at hcol'
          exact hnew hcol'
        rw [hcovers.block hc]
        simp only [Coat.within, if_neg hother, Option.getD_none]
        exact hair col' (List.mem_cons_of_mem col hcol') y
      rw [List.foldlM_cons, List.foldlM_cons, Edit.bind_of_ok hoverwrite, Edit.bind_of_ok hfresh]
      exact ih hrest count' (hcovers.valid hc) hstill

/-- **Building over a chunk of air is building in it**: the same answer, and the same chunk down to
its palettes and storages. -/
theorem buildInto_overwrite_of_air (a : Area) (coord : ChunkCoord) (m : Merges) (hc : c.Valid)
    (hair : ∀ p, c.block p = .air) :
    a.buildInto coord m .overwrite c = a.buildInto coord m .fresh c := by
  cases hg : a.grid with
  | error e => rw [buildInto, buildInto, hg, Edit.liftM_error_bind, Edit.liftM_error_bind]
  | ok g =>
      rw [buildInto_of_grid hg, buildInto_of_grid hg]
      exact buildColumns_overwrite_of_air hg m Column.nodup_all 0 hc fun col _ y =>
        hair (col.atHeight y)

end Area

end Cadastre
