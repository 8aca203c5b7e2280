import Cardplay.Effect.Targeting
import Cardplay.Proofs.State.Evolution
import Mathlib.Data.List.Basic

/-!
# Adjusted tables

A table is adjusted when something is done to the players in some of its seats and nothing else changes.
Seating players over those with the same identifiers is such an adjustment (`GameState.toTable_reseated`).
Adjustments of the same seats compose, and a target resolves to the same seats before and after them
(`Target.resolve_adjusted`).
-/

set_option autoImplicit false

namespace Cardplay

namespace OrderedMap
variable {α : Type}

theorem entries_eq_filterMap (m : OrderedMap α) :
    m.keys.filterMap (fun key => (m.get? key).map (key, ·)) = m.entries := by
  have hget : ∀ entry ∈ m.entries, (m.get? entry.1).map (entry.1, ·) = some entry := by
    intro entry he
    rw [mem_entries_iff.mp he]
    rfl
  rw [keys, List.filterMap_map]
  exact (List.filterMap_congr hget).trans List.filterMap_some

/-- Maps with the same keys in the same order and the same values are equal. -/
theorem ext_of_get? {m n : OrderedMap α} (hk : m.keys = n.keys) (h : ∀ key, m.get? key = n.get? key) :
    m = n := by
  apply OrderedMap.ext
  rw [← entries_eq_filterMap m, ← entries_eq_filterMap n, hk, funext h]

end OrderedMap

/-- What `f` makes of the player of a seat, if the seat is one of the given ones. -/
def Seat.adjust (ids : List String) (f : Player → Player) (seat : Seat) : Seat :=
  (seat.1, if seat.1 ∈ ids then f seat.2 else seat.2)

namespace Table

/-- The table with `f` applied to the players in the given seats. -/
def adjust (t : Table) (ids : List String) (f : Player → Player) : Table :=
  { t with players := ⟨t.players.entries.map (Seat.adjust ids f), by
      simpa [List.map_map, Function.comp_def, Seat.adjust] using t.players.nodup⟩ }

variable {t : Table} {ids : List String} {f g : Player → Player}

theorem entries_adjust : (t.adjust ids f).players.entries = t.players.entries.map (Seat.adjust ids f) :=
  rfl

@[simp] theorem keys_adjust : (t.adjust ids f).players.keys = t.players.keys := by
  simp [OrderedMap.keys, entries_adjust, List.map_map, Function.comp_def, Seat.adjust]

theorem get?_adjust (id : String) : (t.adjust ids f).players.get? id =
    (t.players.get? id).map fun p => if id ∈ ids then f p else p := by
  have hentries : ∀ entries : List Seat, Entries.find? id (entries.map (Seat.adjust ids f)) =
      (Entries.find? id entries).map fun p => if id ∈ ids then f p else p := by
    intro entries
    induction entries with
    | nil => rfl
    | cons seat rest ih =>
      by_cases h : seat.1 = id
      · simp [Entries.find?, Seat.adjust, h]
      · simpa [Entries.find?, Seat.adjust, h] using ih
  exact hentries t.players.entries

theorem adjust_adjust (t : Table) (ids : List String) (f g : Player → Player) :
    (t.adjust ids f).adjust ids g = t.adjust ids (g ∘ f) := by
  have hseat : Seat.adjust ids g ∘ Seat.adjust ids f = Seat.adjust ids (g ∘ f) := by
    funext seat
    by_cases h : seat.1 ∈ ids <;> simp [Seat.adjust, h]
  simp [adjust, List.map_map, hseat]

theorem adjust_id (t : Table) (ids : List String) : t.adjust ids id = t := by
  have hseat : Seat.adjust ids id = id := by
    funext seat
    simp [Seat.adjust]
  simp [adjust, hseat]

theorem adjust_congr (h : ∀ seat ∈ t.players.entries, seat.1 ∈ ids → f seat.2 = g seat.2) :
    t.adjust ids f = t.adjust ids g := by
  have hseat : t.players.entries.map (Seat.adjust ids f) = t.players.entries.map (Seat.adjust ids g) := by
    refine List.map_congr_left fun seat hm => ?_
    by_cases hi : seat.1 ∈ ids
    · simp [Seat.adjust, hi, h seat hm hi]
    · simp [Seat.adjust, hi]
  simp only [adjust, hseat]

end Table

namespace GameState
variable {s t : GameState} {seats : List Seat} {g : Player → Option Player}

/-- Of the players that `g` puts in the place of others, the one with a seat's identifier is that seat's. -/
theorem find?_reseated (hs : s.Valid) (hm : ∀ seat ∈ seats, seat ∈ s.players.entries)
    (hid : ∀ p q, g p = some q → q.id = p.id) {seat : Seat} (hseat : seat ∈ seats) :
    (seats.filterMap fun seat => g seat.2).reverse.find? (fun q => q.id = seat.1) = g seat.2 := by
  cases hfind : (seats.filterMap fun seat => g seat.2).reverse.find? fun q => q.id = seat.1 with
  | none =>
    cases hq : g seat.2 with
    | none => rfl
    | some q =>
      have hmem : q ∈ (seats.filterMap fun seat => g seat.2).reverse :=
        List.mem_reverse.mpr (List.mem_filterMap.mpr ⟨seat, hseat, hq⟩)
      have hsame : q.id = seat.1 := (hid seat.2 q hq).trans (hs.seated seat (hm seat hseat)).symm
      exact absurd hsame (by simpa using List.find?_eq_none.mp hfind q hmem)
  | some q =>
    have hqid : q.id = seat.1 := by simpa using List.find?_some hfind
    obtain ⟨other, hother, hq⟩ :=
      List.mem_filterMap.mp (List.mem_reverse.mp (List.mem_of_find?_eq_some hfind))
    have hseated := hs.seated other (hm other hother)
    have hkey : other.1 = seat.1 := hseated.trans ((hid other.2 q hq).symm.trans hqid)
    have hget := OrderedMap.mem_entries_iff.mp (hm other hother)
    rw [hkey, OrderedMap.mem_entries_iff.mp (hm seat hseat)] at hget
    rw [Option.some.inj hget, hq]

/-- Seating the players that `g` puts in the place of others adjusts the table. -/
theorem toTable_reseated (hs : s.Valid) (hm : ∀ seat ∈ seats, seat ∈ s.players.entries)
    (hid : ∀ p q, g p = some q → q.id = p.id) :
    (s.replace { players := some (placeAll s.players (seats.filterMap fun seat => g seat.2)) }).toTable =
      s.toTable.adjust (seats.map Prod.fst) fun p => (g p).getD p := by
  have hids : ∀ q ∈ seats.filterMap fun seat => g seat.2, q.id ∈ seats.map Prod.fst := by
    intro q hq
    obtain ⟨seat, hseat, hq⟩ := List.mem_filterMap.mp hq
    rw [hid seat.2 q hq, ← hs.seated seat (hm seat hseat)]
    exact List.mem_map_of_mem hseat
  have hplayers : placeAll s.players (seats.filterMap fun seat => g seat.2) =
      (s.toTable.adjust (seats.map Prod.fst) fun p => (g p).getD p).players := by
    refine OrderedMap.ext_of_get? ?_ fun key => ?_
    · rw [Table.keys_adjust]
      refine keys_placeAll fun q hq => ?_
      obtain ⟨seat, hseat, hkey⟩ := List.mem_map.mp (hids q hq)
      exact hkey ▸ List.mem_map_of_mem (hm seat hseat)
    · rw [get?_placeAll, Table.get?_adjust]
      by_cases hkey : key ∈ seats.map Prod.fst
      · obtain ⟨seat, hseat, rfl⟩ := List.mem_map.mp hkey
        rw [find?_reseated hs hm hid hseat, OrderedMap.mem_entries_iff.mp (hm seat hseat)]
        simp [hkey]
      · have hnone : (seats.filterMap fun seat => g seat.2).reverse.find? (fun q => q.id = key) = none := by
          refine List.find?_eq_none.mpr fun q hq => ?_
          have hmem := hids q (List.mem_reverse.mp hq)
          simpa using fun h : q.id = key => hkey (h ▸ hmem)
        rw [hnone]
        simp [hkey]
  simp [replace, Changes.settled, hplayers, Table.adjust]

end GameState

/-- A target resolves to the same seats at an adjusted table. -/
theorem Target.resolve_adjusted {s t : GameState} {ids : List String} {f : Player → Player}
    (h : t.toTable = s.toTable.adjust ids f) (target : Target) (id : String) :
    target.resolve id t = (target.resolve id s).map (List.map (Seat.adjust ids f)) := by
  have hentries : t.players.entries = s.players.entries.map (Seat.adjust ids f) := by
    rw [h, Table.entries_adjust]
  have hother : t.players.entries.find? (fun seat => seat.1 ≠ id) =
      (s.players.entries.find? fun seat => seat.1 ≠ id).map (Seat.adjust ids f) := by
    rw [hentries, List.find?_map]
    rfl
  have hplayer : t.player? id = (s.player? id).map fun p => if id ∈ ids then f p else p := by
    rw [GameState.player?, h, Table.get?_adjust]
    rfl
  cases target with
  | self =>
    simp only [resolve, hplayer]
    cases s.player? id <;> rfl
  | opponent =>
    simp only [resolve, hother]
    cases s.players.entries.find? fun seat => seat.1 ≠ id <;> rfl
  | ally =>
    simp only [resolve, hother]
    cases s.players.entries.find? fun seat => seat.1 ≠ id <;> rfl
  | all => simp only [resolve, hentries, Except.map]

/-- The seats that a target resolves to stay these when only their players are adjusted. -/
theorem Target.resolve_worked {s t : GameState} {seats : List Seat} {f : Player → Player} {target : Target}
    {id : String} (h : t.toTable = s.toTable.adjust (seats.map Prod.fst) f)
    (hr : target.resolve id s = .ok seats) :
    target.resolve id t = .ok (seats.map fun seat => (seat.1, f seat.2)) := by
  have hseats : seats.map (Seat.adjust (seats.map Prod.fst) f) = seats.map fun seat => (seat.1, f seat.2) := by
    refine List.map_congr_left fun seat hm => ?_
    rw [Seat.adjust, if_pos (List.mem_map_of_mem hm)]
  rw [Target.resolve_adjusted h, hr, Except.map, hseats]

end Cardplay
