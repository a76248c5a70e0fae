import TelemetryExport.Proofs.Export.Packing

/-! # Cutting points into runs

Where one run ends and the next begins is decided point by point. A point that fits a
request joins the run as long as there is room behind it; where there is none, the run is
cut off and the point begins the next one. A point that fits no request joins none, but it
is tried before that shows: if there is no room for what is written of it, the run in front
of it is cut off all the same.
-/

namespace TelemetryExport

/-- The runs that were cut off, and the run that is open for more points. -/
structure Cargo where
  sent : List (List PlacedPoint)
  run : List PlacedPoint

namespace Cargo

/-- The cargo before the first point. -/
def empty : Cargo := ⟨[], []⟩

/-- Cuts off the run, if there is a point in it. -/
def cut (cargo : Cargo) : Cargo :=
  if cargo.run.isEmpty then cargo else ⟨cargo.sent ++ [cargo.run], []⟩

/-- Puts a point behind the run. -/
def push (item : PlacedPoint) (cargo : Cargo) : Cargo :=
  { cargo with run := cargo.run ++ [item] }

/-- Whether a request with the run has no room for what would be written of the point. -/
def overflows (properties : List Attribute) (capacity : Nat) (cargo : Cargo)
    (item : PlacedPoint) : Bool :=
  capacity < (Draft.ofRun properties cargo.run).bytes.length +
    (Draft.ofRun properties cargo.run).leading properties item

/-- What becomes of the runs when a point is written. -/
def load (properties : List Attribute) (capacity : Nat) (cargo : Cargo)
    (item : PlacedPoint) : Cargo :=
  let ready := if cargo.overflows properties capacity item then cargo.cut else cargo
  if item.fits properties capacity then ready.push item else ready

/-- The runs into which points are cut. -/
def pack (properties : List Attribute) (capacity : Nat) (items : List PlacedPoint) :
    List (List PlacedPoint) :=
  (items.foldl (load properties capacity) empty).cut.sent

variable {properties : List Attribute} {capacity : Nat} {cargo : Cargo} {item : PlacedPoint}

theorem cut_of_nil (hrun : cargo.run = []) : cargo.cut = cargo := by
  rw [cut, hrun]
  rfl

theorem cut_of_ne_nil (hrun : cargo.run ≠ []) : cargo.cut = ⟨cargo.sent ++ [cargo.run], []⟩ := by
  rw [cut, if_neg]
  rw [List.isEmpty_iff]
  exact hrun

theorem run_cut (cargo : Cargo) : cargo.cut.run = [] := by
  by_cases hrun : cargo.run = []
  · rw [cut_of_nil hrun, hrun]
  · rw [cut_of_ne_nil hrun]

theorem overflows_eq_true_iff : cargo.overflows properties capacity item = true ↔
    capacity < (Draft.ofRun properties cargo.run).bytes.length +
      (Draft.ofRun properties cargo.run).leading properties item := by
  rw [overflows, decide_eq_true_eq]

/-- A point with a form is tried as a whole. -/
theorem overflows_of_valid (hvalid : item.point.isValid = true) :
    cargo.overflows properties capacity item = true ↔
      capacity < (Draft.ofRun properties (cargo.run ++ [item])).bytes.length := by
  rw [overflows_eq_true_iff, Draft.leading_of_valid _ _ hvalid, Draft.ofRun_concat,
    Draft.length_bytes_append]

theorem load_of_overflows (hfull : cargo.overflows properties capacity item = true) :
    cargo.load properties capacity item =
      if item.fits properties capacity then cargo.cut.push item else cargo.cut := by
  rw [load, if_pos hfull]

theorem load_of_room (hroom : ¬cargo.overflows properties capacity item = true) :
    cargo.load properties capacity item =
      if item.fits properties capacity then cargo.push item else cargo := by
  rw [load, if_neg hroom]

/-- A point that fits no request leaves the runs as they are, unless it overflows one. -/
theorem load_of_unfit (hunfit : item.fits properties capacity = false)
    (hempty : cargo.overflows properties capacity item = true → cargo.run = []) :
    cargo.load properties capacity item = cargo := by
  by_cases hfull : cargo.overflows properties capacity item = true
  · rw [load_of_overflows hfull, hunfit, if_neg Bool.false_ne_true, cut_of_nil (hempty hfull)]
  · rw [load_of_room hfull, hunfit, if_neg Bool.false_ne_true]

theorem run_load_sublist (cargo : Cargo) (item : PlacedPoint) :
    (cargo.load properties capacity item).run.Sublist (cargo.run ++ [item]) := by
  have hready : (if cargo.overflows properties capacity item = true then cargo.cut
      else cargo).run.Sublist cargo.run := by
    split
    · rw [run_cut]
      exact List.nil_sublist _
    · exact List.Sublist.refl _
  rw [load]
  split
  · exact hready.append (List.Sublist.refl _)
  · exact hready.trans (List.sublist_append_left _ _)

/-! ## What is in the runs -/

/-- The runs are made of some of the points, in their order, and only the open one can be
without any. -/
structure HoldsSome (cargo : Cargo) (points : List PlacedPoint) : Prop where
  sublist : (cargo.sent.flatten ++ cargo.run).Sublist points
  ne_nil : ∀ run ∈ cargo.sent, run ≠ []

theorem HoldsSome.cut {points : List PlacedPoint} (hholds : cargo.HoldsSome points) :
    cargo.cut.HoldsSome points := by
  by_cases hrun : cargo.run = []
  · rw [cut_of_nil hrun]
    exact hholds
  · rw [cut_of_ne_nil hrun]
    constructor
    · rw [List.flatten_append, List.flatten_singleton, List.append_nil]
      exact hholds.sublist
    · intro run hmem
      rcases List.mem_append.mp hmem with hmem | hmem
      · exact hholds.ne_nil run hmem
      · rw [List.mem_singleton.mp hmem]
        exact hrun

theorem HoldsSome.load {points : List PlacedPoint} (hholds : cargo.HoldsSome points)
    (item : PlacedPoint) : (cargo.load properties capacity item).HoldsSome (points ++ [item]) := by
  have hready : (if cargo.overflows properties capacity item = true then cargo.cut
      else cargo).HoldsSome points := by
    split
    · exact hholds.cut
    · exact hholds
  rw [Cargo.load]
  split
  · refine ⟨?_, hready.ne_nil⟩
    rw [push, ← List.append_assoc]
    exact hready.sublist.append (List.Sublist.refl _)
  · exact ⟨hready.sublist.trans (List.sublist_append_left _ _), hready.ne_nil⟩

theorem holdsSome_foldl (properties : List Attribute) (capacity : Nat)
    (items : List PlacedPoint) :
    (items.foldl (load properties capacity) empty).HoldsSome items := by
  induction items using List.reverseRecOn with
  | nil => exact ⟨List.nil_sublist _, fun _ hmem => absurd hmem List.not_mem_nil⟩
  | append_singleton items item ih =>
      rw [List.foldl_append]
      exact ih.load item

theorem ne_nil_of_mem_pack {items run : List PlacedPoint}
    (hmem : run ∈ pack properties capacity items) : run ≠ [] :=
  (holdsSome_foldl properties capacity items).cut.ne_nil run hmem

theorem sublist_of_mem_pack {items run : List PlacedPoint}
    (hmem : run ∈ pack properties capacity items) : run.Sublist items :=
  (List.sublist_flatten_of_mem hmem).trans ((List.sublist_append_left _ _).trans
    (holdsSome_foldl properties capacity items).cut.sublist)

/-! ## Points that fit no request -/

/-- Whether a point that fits no request has the run cut off all the same. -/
def interruptedBy (properties : List Attribute) (capacity : Nat) (cargo : Cargo)
    (item : PlacedPoint) : Bool :=
  !item.fits properties capacity &&
    (!cargo.run.isEmpty && cargo.overflows properties capacity item)

/-- The points that fit a request, in pieces: a piece ends where a point that fits none has
the run cut off. -/
def pieces (properties : List Attribute) (capacity : Nat) :
    Cargo → List PlacedPoint → List (List PlacedPoint)
  | _, [] => [[]]
  | cargo, item :: rest =>
      let later := pieces properties capacity (cargo.load properties capacity item) rest
      if item.fits properties capacity then later.modifyHead (item :: ·)
      else if cargo.interruptedBy properties capacity item then [] :: later
      else later

/-- The cargo behind runs that were sent before. -/
def behind (front : List (List PlacedPoint)) (cargo : Cargo) : Cargo :=
  { cargo with sent := front ++ cargo.sent }

theorem cut_behind (front : List (List PlacedPoint)) (cargo : Cargo) :
    (cargo.behind front).cut = cargo.cut.behind front := by
  by_cases hrun : cargo.run = []
  · rw [cut_of_nil hrun]
    exact cut_of_nil hrun
  · have hbehind : (cargo.behind front).run ≠ [] := hrun
    rw [cut_of_ne_nil hbehind, cut_of_ne_nil hrun]
    exact congrArg (Cargo.mk · []) (List.append_assoc _ _ _)

/-- What was sent before does not matter to the runs that follow. -/
theorem foldl_load_behind (front : List (List PlacedPoint)) (cargo : Cargo)
    (items : List PlacedPoint) :
    items.foldl (load properties capacity) (cargo.behind front) =
      (items.foldl (load properties capacity) cargo).behind front := by
  induction items generalizing cargo with
  | nil => rfl
  | cons item rest ih =>
      have hload : (cargo.behind front).load properties capacity item =
          (cargo.load properties capacity item).behind front := by
        have hsame : (cargo.behind front).overflows properties capacity item =
            cargo.overflows properties capacity item := rfl
        rw [load, load, hsame, cut_behind]
        split <;> split <;> rfl
      rw [List.foldl_cons, List.foldl_cons, hload, ih]

theorem cut_of_interruptedBy (hinterrupted : cargo.interruptedBy properties capacity item = true) :
    cargo.load properties capacity item = empty.behind (cargo.cut.sent) := by
  rw [interruptedBy, Bool.and_eq_true, Bool.and_eq_true, Bool.not_eq_true', Bool.not_eq_true',
    List.isEmpty_eq_false_iff] at hinterrupted
  obtain ⟨hunfit, hne, hfull⟩ := hinterrupted
  rw [load_of_overflows hfull, hunfit, if_neg Bool.false_ne_true, cut_of_ne_nil hne, behind]
  exact congrArg (Cargo.mk · []) (List.append_nil _).symm

theorem load_of_not_interruptedBy (hunfit : item.fits properties capacity = false)
    (hfree : cargo.interruptedBy properties capacity item = false) :
    cargo.load properties capacity item = cargo := by
  refine load_of_unfit hunfit fun hfull => ?_
  rw [interruptedBy, hunfit, hfull, Bool.not_false, Bool.true_and, Bool.and_true,
    Bool.not_eq_false', List.isEmpty_iff] at hfree
  exact hfree

/-- Behind the first piece each is packed as though it came first. -/
theorem exists_pieces (cargo : Cargo) (items : List PlacedPoint) :
    ∃ first more, pieces properties capacity cargo items = first :: more ∧
      (items.foldl (load properties capacity) cargo).cut.sent =
        (first.foldl (load properties capacity) cargo).cut.sent ++
          more.flatMap (pack properties capacity) := by
  induction items generalizing cargo with
  | nil => exact ⟨[], [], rfl, (List.append_nil _).symm⟩
  | cons item rest ih =>
      obtain ⟨first, more, hpieces, hsent⟩ := ih (cargo.load properties capacity item)
      by_cases hfits : item.fits properties capacity = true
      · refine ⟨item :: first, more, ?_, hsent⟩
        rw [pieces, if_pos hfits, hpieces]
        rfl
      · rw [Bool.not_eq_true] at hfits
        by_cases hinterrupted : cargo.interruptedBy properties capacity item = true
        · refine ⟨[], first :: more, ?_, ?_⟩
          · rw [pieces, hfits, if_neg Bool.false_ne_true, if_pos hinterrupted, hpieces]
          · rw [List.foldl_cons, hsent, cut_of_interruptedBy hinterrupted, foldl_load_behind,
              cut_behind, List.flatMap_cons, ← List.append_assoc]
            rfl
        · rw [Bool.not_eq_true] at hinterrupted
          refine ⟨first, more, ?_, ?_⟩
          · rw [pieces, hfits, if_neg Bool.false_ne_true, hinterrupted,
              if_neg Bool.false_ne_true, hpieces]
          · rw [load_of_not_interruptedBy hfits hinterrupted] at hsent
            rw [List.foldl_cons, load_of_not_interruptedBy hfits hinterrupted, hsent]

/-- Points are packed piece by piece. -/
theorem pack_eq_flatMap_pieces (properties : List Attribute) (capacity : Nat)
    (items : List PlacedPoint) :
    pack properties capacity items =
      (pieces properties capacity empty items).flatMap (pack properties capacity) := by
  obtain ⟨first, more, hpieces, hsent⟩ := exists_pieces empty items
  rw [hpieces, List.flatMap_cons]
  exact hsent

/-- The pieces are made of the points that fit a request. -/
theorem flatten_pieces (cargo : Cargo) (items : List PlacedPoint) :
    (pieces properties capacity cargo items).flatten =
      items.filter (·.fits properties capacity) := by
  induction items generalizing cargo with
  | nil => rfl
  | cons item rest ih =>
      have hlater := ih (cargo.load properties capacity item)
      obtain ⟨first, more, hpieces, -⟩ :=
        exists_pieces (cargo.load properties capacity item) rest
      rw [hpieces] at hlater
      rw [pieces, List.filter_cons, hpieces]
      by_cases hfits : item.fits properties capacity = true
      · rw [if_pos hfits, if_pos hfits, ← hlater]
        rfl
      · rw [if_neg hfits, if_neg hfits, ← hlater]
        split <;> rfl

/-- If no run is cut off for a point that fits no request, there is one piece. -/
theorem pieces_of_forall {cargo : Cargo} {items : List PlacedPoint}
    (hfree : ∀ before item rest, items = before ++ item :: rest →
      (before.foldl (load properties capacity) cargo).interruptedBy properties capacity item =
        false) :
    pieces properties capacity cargo items = [items.filter (·.fits properties capacity)] := by
  induction items generalizing cargo with
  | nil => rfl
  | cons item rest ih =>
      have hhead := hfree [] item rest rfl
      have hlater := ih fun before other more hrest => by
        have hitem := hfree (item :: before) other more (congrArg (item :: ·) hrest)
        rw [List.foldl_cons] at hitem
        exact hitem
      rw [List.foldl_nil] at hhead
      rw [pieces, List.filter_cons, hlater]
      by_cases hfits : item.fits properties capacity = true
      · rw [if_pos hfits, if_pos hfits]
        rfl
      · rw [if_neg hfits, if_neg hfits, hhead, if_neg Bool.false_ne_true]

end Cargo

end TelemetryExport
