import Stencil.Data.Shape

/-!
# Two ways from data to a value

Plain data becomes a value in two ways: directly, type by type (`DataType.toValue`), or through the
shape that it reports about itself (`DataType.shape?`, `Shape.toValue`). The first looks at the
type, the second sees nothing but the report and builds lists and maps item by item. They have to
choose the same variant for every scalar and to collapse optional data in the same way.

The second way writes the entries of a map one after another, over an entry of the same key. Data
in which a key stood twice would come out differently, but a map has each of its keys once
(`DataType.Keyed`).

> `shape_toValue_eq`: plain data has a shape, and the value of the shape is the value of the data.
-/

namespace Stencil

namespace DataType

/-- The types of plain data, which reports its shape: no decimals, no calendar data, no values. -/
def plain : DataType → Bool
  | int _ | float | float32 | bool | char | text | unit => true
  | reference t | option t | list t | map t => t.plain
  | decimal | date | time | dateTime | dateTimeUtc | value => false

/-- All maps in the data, at any depth, have each of their keys once. -/
def Keyed : (t : DataType) → t.Carrier → Prop
  | reference t, x => t.Keyed x
  | option t, x => ∀ y ∈ x, t.Keyed y
  | list t, xs => ∀ x ∈ xs, t.Keyed x
  | map t, entries => (Table.keys entries).Nodup ∧ ∀ e ∈ entries, t.Keyed e.2
  | _, _ => True

/-- The data has a shape whose value is the value of the data. -/
def Describes (t : DataType) (x : t.Carrier) : Prop :=
  ∃ s, t.shape? x = some s ∧ s.toValue = .ok (t.toValue x)

variable {t : DataType}

theorem describes_list (xs : List t.Carrier) (h : ∀ x ∈ xs, t.Describes x) :
    t.list.Describes xs := by
  have hitems : ∃ ss, xs.mapM t.shape? = some ss ∧
      Shape.toItems ss = .ok (xs.map t.toValue) := by
    induction xs with
    | nil => exact ⟨[], rfl, by rw [Shape.toItems]; rfl⟩
    | cons x rest ih =>
      obtain ⟨s, hs, hvalue⟩ := h x (List.mem_cons_self ..)
      obtain ⟨ss, hss, hvalues⟩ := ih fun y hy => h y (List.mem_cons_of_mem x hy)
      refine ⟨s :: ss, by simp [List.mapM_cons, hs, hss], ?_⟩
      simp only [Shape.toItems, hvalue, hvalues, Except.map, List.map_cons]
  obtain ⟨ss, hss, hvalues⟩ := hitems
  refine ⟨.seq ss, by simp [shape?, hss], ?_⟩
  rw [Shape.toValue, hvalues]
  rfl

/-- The entries that are written stand behind those already written, in their order. -/
theorem exists_toEntries (entries : Table t.Carrier) (h : ∀ e ∈ entries, t.Describes e.2)
    (hkeys : (Table.keys entries).Nodup) (written : Table Value)
    (hnew : ∀ key ∈ Table.keys entries, key ∉ Table.keys written) :
    ∃ shapes,
      entries.mapM (fun e => (t.shape? e.2).map fun s => (Shape.text e.1, s)) = some shapes ∧
      Shape.toEntries shapes written = .ok (written ++ entries.mapValues t.toValue) := by
  induction entries generalizing written with
  | nil =>
    refine ⟨[], rfl, ?_⟩
    rw [Shape.toEntries, Table.mapValues, List.map_nil, List.append_nil]
  | cons e rest ih =>
    obtain ⟨key, x⟩ := e
    obtain ⟨s, hs, hvalue⟩ := h (key, x) (List.mem_cons_self ..)
    obtain ⟨hkey, hrest⟩ := List.nodup_cons.1 hkeys
    have hinsert : written.insert key (t.toValue x) = written ++ [(key, t.toValue x)] :=
      Table.insert_of_new (hnew key (List.mem_cons_self ..)) _
    have hrestnew : ∀ other ∈ Table.keys rest,
        other ∉ Table.keys (written ++ [(key, t.toValue x)]) := by
      intro other hother hmem
      rw [Table.keys, List.map_append, List.mem_append] at hmem
      rcases hmem with hmem | hmem
      · exact hnew other (List.mem_cons_of_mem key hother) hmem
      · rw [List.map_singleton, List.mem_singleton] at hmem
        exact hkey (hmem ▸ hother)
    obtain ⟨shapes, hshapes, hentries⟩ :=
      ih (fun e he => h e (List.mem_cons_of_mem _ he)) hrest _ hrestnew
    refine ⟨(.text key, s) :: shapes, by simp [List.mapM_cons, hs, hshapes], ?_⟩
    simp only [Shape.toEntries, Shape.toValue, Shape.keyText, hvalue, hinsert, hentries]
    rw [List.append_assoc]
    rfl

theorem describes_map (entries : Table t.Carrier) (h : ∀ e ∈ entries, t.Describes e.2)
    (hkeys : (Table.keys entries).Nodup) : t.map.Describes entries := by
  obtain ⟨shapes, hshapes, hentries⟩ :=
    exists_toEntries entries h hkeys [] fun _ _ hmem => by cases hmem
  refine ⟨.map shapes, by simp [shape?, hshapes], ?_⟩
  rw [Shape.toValue, hentries]
  rfl

/-- **The two ways to a value agree.** Plain data, whose maps have each of their keys once, reports
a shape, and the value of this shape is there and is the one that the data is shown as. -/
theorem shape_toValue_eq (t : DataType) (h : t.plain = true) (x : t.Carrier) (hx : t.Keyed x) :
    ∃ s, t.shape? x = some s ∧ s.toValue = .ok (t.toValue x) := by
  change t.Describes x
  induction t with
  | int k => exact ⟨.int k x, rfl, by rw [Shape.toValue]; rfl⟩
  | float => exact ⟨.float x, rfl, by rw [Shape.toValue]; rfl⟩
  | float32 => exact ⟨.float32 x, rfl, by rw [Shape.toValue]; rfl⟩
  | bool => exact ⟨.bool x, rfl, by rw [Shape.toValue]; rfl⟩
  | char => exact ⟨.char x, rfl, by rw [Shape.toValue]; rfl⟩
  | text => exact ⟨.text x, rfl, by rw [Shape.toValue]; rfl⟩
  | unit => exact ⟨.unit, rfl, by rw [Shape.toValue]; rfl⟩
  | decimal | date | time | dateTime | dateTimeUtc | value => cases h
  | reference t ih => exact ih h x hx
  | option t ih =>
    cases x with
    | none => exact ⟨.absent, rfl, by rw [Shape.toValue]; rfl⟩
    | some x =>
      obtain ⟨s, hs, hvalue⟩ := ih h x (hx x rfl)
      refine ⟨.present s, by simp [shape?, hs], ?_⟩
      rw [Shape.toValue, hvalue]
      rfl
  | list t ih => exact describes_list x fun y hy => ih h y (hx y hy)
  | map t ih => exact describes_map x (fun e he => ih h e.2 (hx.2 e he)) hx.1

/-- Missing data, and numbers behind references, in lists in a map. -/
theorem shape_toValue_eq_of_nested :
    let t := DataType.map (.option (.list (.reference (.int .u8))))
    let ten : IntKind.Num .u8 := ⟨10, by decide⟩
    let x : t.Carrier := [("b", some [ten, ten]), ("a", none)]
    t.plain = true ∧ t.Keyed x ∧ ∃ s, t.shape? x = some s ∧
      s.toValue = .ok (.map [("b", .list [.u64 10, .u64 10]), ("a", .null)]) := by
  intro t ten x
  have hkeyed : t.Keyed x := by simp [t, x, Keyed, Table.keys]
  exact ⟨rfl, hkeyed, shape_toValue_eq t rfl x hkeyed⟩

end DataType

end Stencil
