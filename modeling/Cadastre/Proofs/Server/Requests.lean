import Cadastre.Proofs.Server.Start
import Mathlib.Algebra.GroupWithZero.Nat
import Mathlib.Data.List.Nodup
/-!
# Cadastre.Proofs.Server.Requests

**What a run asks for**: every chunk of the square of every configured world, once
(`Run.mem_asked_requests`, `Run.nodup_asked_requests`).
-/

namespace Cadastre

/-! ### Squares -/

namespace WorldSpec

/-- Whether a chunk lies in the square of a world. -/
def InSquare (spec : WorldSpec) (coord : ChunkCoord) : Prop :=
  (-spec.radius.toInt ≤ coord.x.toInt ∧ coord.x.toInt ≤ spec.radius.toInt) ∧
    -spec.radius.toInt ≤ coord.z.toInt ∧ coord.z.toInt ≤ spec.radius.toInt

/-- The number of chunks along an edge of the square of a world. -/
def side (spec : WorldSpec) : Nat := 2 * spec.radius.toInt.toNat + 1

variable {radius : Int32}

/-- The numbers of a radius are 32-bit numbers. -/
theorem toInt_step (hradius : 0 ≤ radius.toInt) {i : Nat}
    (hi : i < 2 * radius.toInt.toNat + 1) :
    (Int32.ofInt (i - radius.toInt)).toInt = i - radius.toInt := by
  refine Int32.toInt_ofInt_of_fits ?_
  obtain ⟨hlow, hhigh⟩ := Int32.fits_toInt radius
  constructor <;> omega

theorem mem_steps (hradius : 0 ≤ radius.toInt) {n : Int32} :
    n ∈ steps radius ↔ -radius.toInt ≤ n.toInt ∧ n.toInt ≤ radius.toInt := by
  unfold steps
  simp only [List.mem_map, List.mem_range]
  constructor
  · rintro ⟨i, hi, rfl⟩
    rw [toInt_step hradius hi]
    omega
  · rintro ⟨hlow, hhigh⟩
    refine ⟨(n.toInt + radius.toInt).toNat, by omega, ?_⟩
    have hback : ((n.toInt + radius.toInt).toNat : Int) - radius.toInt = n.toInt := by omega
    rw [hback, Int32.ofInt_toInt]

theorem nodup_steps (hradius : 0 ≤ radius.toInt) : (steps radius).Nodup := by
  refine List.Nodup.map_on ?_ List.nodup_range
  intro i hi j hj heq
  have htoInt := congrArg Int32.toInt heq
  rw [toInt_step hradius (List.mem_range.mp hi), toInt_step hradius (List.mem_range.mp hj)]
    at htoInt
  omega

variable {spec : WorldSpec}

theorem mem_chunks (hradius : 0 ≤ spec.radius.toInt) {coord : ChunkCoord} :
    coord ∈ spec.chunks ↔ spec.InSquare coord := by
  unfold chunks InSquare
  simp only [List.mem_flatMap, List.mem_map, mem_steps hradius]
  constructor
  · rintro ⟨x, hx, z, hz, rfl⟩
    exact ⟨hx, hz⟩
  · rintro ⟨hx, hz⟩
    exact ⟨coord.x, hx, coord.z, hz, rfl⟩

theorem nodup_chunks (hradius : 0 ≤ spec.radius.toInt) : spec.chunks.Nodup := by
  unfold chunks
  rw [List.nodup_flatMap]
  constructor
  · intro x _
    exact (nodup_steps hradius).map fun z z' heq => (ChunkCoord.mk.inj heq).2
  · refine (nodup_steps hradius).imp fun hne => ?_
    simp only [Function.onFun, List.disjoint_left, List.mem_map]
    rintro _ ⟨z, -, rfl⟩ ⟨z', -, heq⟩
    exact hne (ChunkCoord.mk.inj heq).1.symm

theorem length_chunks (spec : WorldSpec) : spec.chunks.length = spec.side ^ 2 := by
  have hsteps : (steps spec.radius).length = spec.side := by
    simp [steps, side]
  simp [chunks, List.length_flatMap, hsteps, Nat.pow_two]

end WorldSpec

/-! ### Requests -/

/-- The chunk that an event asks for, with the name of its world. -/
def RunEvent.asked? : RunEvent → Option (String × ChunkCoord)
  | request world coord => some (world, coord)
  | round => none

namespace Run

/-- The chunks that a schedule asks for, in order. -/
def asked (schedule : List RunEvent) : List (String × ChunkCoord) :=
  schedule.filterMap RunEvent.asked?

theorem asked_requests (config : ServerConfig) :
    asked (requests config) =
      config.worlds.toList.flatMap fun entry => entry.2.chunks.map (entry.1, ·) := by
  unfold asked requests
  rw [List.filterMap_flatMap]
  congr 1
  funext entry
  rw [List.filterMap_map]
  exact congrFun List.filterMap_eq_map entry.2.chunks

variable {config : ServerConfig}

theorem mem_asked_requests
    (hradius : ∀ entry ∈ config.worlds.toList, 0 ≤ entry.2.radius.toInt)
    {world : String} {coord : ChunkCoord} : (world, coord) ∈ asked (requests config) ↔
      ∃ spec, config.worlds[world]? = some spec ∧ spec.InSquare coord := by
  rw [asked_requests]
  simp only [List.mem_flatMap, List.mem_map, Prod.mk.injEq]
  constructor
  · rintro ⟨⟨_, spec⟩, hentry, _, hcoord, rfl, rfl⟩
    exact ⟨spec, Std.TreeMap.mem_toList_iff_getElem?_eq_some.mp hentry,
      (WorldSpec.mem_chunks (hradius _ hentry)).mp hcoord⟩
  · rintro ⟨spec, hspec, hcoord⟩
    have hentry := Std.TreeMap.mem_toList_iff_getElem?_eq_some.mpr hspec
    exact ⟨(world, spec), hentry, coord, (WorldSpec.mem_chunks (hradius _ hentry)).mpr hcoord, rfl,
      rfl⟩

theorem nodup_asked_requests
    (hradius : ∀ entry ∈ config.worlds.toList, 0 ≤ entry.2.radius.toInt) :
    (asked (requests config)).Nodup := by
  rw [asked_requests, List.nodup_flatMap]
  constructor
  · intro entry hentry
    exact (WorldSpec.nodup_chunks (hradius entry hentry)).map fun _ _ heq => (Prod.mk.inj heq).2
  · refine (distinct_worlds config).imp fun hne => ?_
    simp only [Function.onFun, List.disjoint_left, List.mem_map]
    rintro _ ⟨coord, -, rfl⟩ ⟨coord', -, heq⟩
    exact hne (Prod.mk.inj heq).1.symm

theorem length_asked_requests (config : ServerConfig) : (asked (requests config)).length =
    (config.worlds.toList.map fun entry => entry.2.side ^ 2).sum := by
  rw [asked_requests]
  simp [List.length_flatMap, WorldSpec.length_chunks]

end Run

end Cadastre
