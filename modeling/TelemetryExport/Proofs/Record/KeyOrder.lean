import Mathlib.Data.List.Forall2
import TelemetryExport.Record.KeyOrder

/-! # What key order changes

An envelope in key order is the envelope with whole entries in other places. Nothing is
added, lost or written anew: the bytes before and behind the entries stay, every entry keeps
its key, and a value changes only as a map does whose own entries change places.
-/

namespace TelemetryExport.KeyOrder

open MessagePack

/-! ## Rearranging -/

/-- The bytes are the same, or they hold entries one after the other that are exchanged for
related ones. -/
inductive Exchanges (related : List Entry → List Entry → Prop) :
    List UInt8 → List UInt8 → Prop
  | same (bytes : List UInt8) : Exchanges related bytes bytes
  | entries (front back : List UInt8) {before after : List Entry}
      (hrelated : related before after) :
      Exchanges related (front ++ before.flatMap Entry.bytes ++ back)
        (front ++ after.flatMap Entry.bytes ++ back)

/-- The entry keeps its key. If it changes at all, entries in its value change places. -/
structure Entry.Keeps (entry changed : Entry) : Prop where
  text_eq : changed.text = entry.text
  key_eq : changed.key = entry.key
  value : Exchanges List.Perm entry.value changed.value

/-- The entries change places, and some perhaps also inside. -/
def Rearranges (before after : List Entry) : Prop :=
  ∃ changed, List.Forall₂ Entry.Keeps before changed ∧ changed.Perm after

theorem Entry.keeps_self (entry : Entry) : entry.Keeps entry := ⟨rfl, rfl, .same _⟩

theorem forall₂_keeps_self (entries : List Entry) :
    List.Forall₂ Entry.Keeps entries entries :=
  List.forall₂_same.mpr fun entry _ => entry.keeps_self

/-- Entries in other places take as many bytes, if each of them does. -/
theorem length_flatMap_of_perm {before after : List Entry} (hperm : before.Perm after) :
    (after.flatMap Entry.bytes).length = (before.flatMap Entry.bytes).length :=
  (hperm.symm.flatMap_right Entry.bytes).length_eq

theorem Exchanges.length_eq {related : List Entry → List Entry → Prop} {bytes changed : List UInt8}
    (hexchanges : Exchanges related bytes changed)
    (hrelated : ∀ before after, related before after →
      (after.flatMap Entry.bytes).length = (before.flatMap Entry.bytes).length) :
    changed.length = bytes.length := by
  cases hexchanges with
  | same => rfl
  | entries front back hentries =>
      simp only [List.length_append, hrelated _ _ hentries]

theorem Entry.Keeps.length_eq {entry changed : Entry} (hkeeps : entry.Keeps changed) :
    changed.bytes.length = entry.bytes.length := by
  rw [Entry.bytes, Entry.bytes, List.length_append, List.length_append, hkeeps.key_eq,
    hkeeps.value.length_eq fun _ _ => length_flatMap_of_perm]

theorem Rearranges.length_eq {before after : List Entry} (hrearranges : Rearranges before after) :
    (after.flatMap Entry.bytes).length = (before.flatMap Entry.bytes).length := by
  obtain ⟨changed, hkeeps, hperm⟩ := hrearranges
  rw [length_flatMap_of_perm hperm]
  clear hperm
  induction hkeeps with
  | nil => rfl
  | cons hentry _ ih =>
      rw [List.flatMap_cons, List.flatMap_cons, List.length_append, List.length_append, ih,
        hentry.length_eq]

/-! ## Taking entries apart -/

theorem append_of_splitValue? {bytes own rest : List UInt8} {value : Value}
    (hsplit : splitValue? bytes = some (value, own, rest)) : bytes = own ++ rest := by
  obtain ⟨⟨_, after⟩, -, hsplit⟩ := Option.bind_eq_some_iff.mp hsplit
  simp only [List.splitAt_eq] at hsplit
  cases hsplit
  exact (List.take_append_drop _ _).symm

theorem append_of_splitEntries? {count : Nat} {bytes rest : List UInt8} {entries : List Entry}
    (hsplit : splitEntries? count bytes = some (entries, rest)) :
    bytes = entries.flatMap Entry.bytes ++ rest := by
  induction count generalizing bytes entries rest with
  | zero =>
      cases hsplit
      rfl
  | succ count ih =>
      obtain ⟨⟨_, key, _⟩, hkey, hsplit⟩ := Option.bind_eq_some_iff.mp hsplit
      obtain ⟨⟨_, value, _⟩, hvalue, hsplit⟩ := Option.bind_eq_some_iff.mp hsplit
      obtain ⟨⟨others, _⟩, hothers, hsplit⟩ := Option.bind_eq_some_iff.mp hsplit
      cases hsplit
      rw [append_of_splitValue? hkey, append_of_splitValue? hvalue, ih hothers,
        List.flatMap_cons, Entry.bytes]
      simp only [List.append_assoc]

/-- Arranging the entries of a map exchanges them for those that the arrangement gives. -/
theorem exchanges_of_mapEntries? {arrange : List Entry → List Entry}
    {related : List Entry → List Entry → Prop}
    (harrange : ∀ entries, related entries (arrange entries)) {bytes arranged : List UInt8}
    (hmap : mapEntries? arrange bytes = some arranged) : Exchanges related bytes arranged := by
  match bytes with
  | [] => cases hmap
  | [_] => cases hmap
  | [_, _] => cases hmap
  | marker :: high :: low :: content =>
      obtain ⟨⟨entries, rest⟩, hsplit, hmap⟩ := Option.bind_eq_some_iff.mp hmap
      cases hmap
      rw [append_of_splitEntries? hsplit]
      exact .entries [marker, high, low] rest (harrange entries)

/-! ## Sorting -/

theorem sort_perm (entries : List Entry) : entries.Perm (sort entries) :=
  (List.mergeSort_perm ..).symm

theorem atMost_total (a b : List UInt8) : (atMost a b || atMost b a) = true := by
  induction a generalizing b with
  | nil => rfl
  | cons x xs ih =>
      cases b with
      | nil => rfl
      | cons y ys =>
          by_cases hsame : x = y
          · simp only [atMost, hsame, if_true]
            exact ih ys
          · simp only [atMost, if_neg hsame, if_neg (Ne.symm hsame), Bool.or_eq_true,
              decide_eq_true_eq]
            exact UInt8.lt_or_lt_of_ne hsame

theorem atMost_trans {a b c : List UInt8} (hfirst : atMost a b = true)
    (hsecond : atMost b c = true) : atMost a c = true := by
  induction a generalizing b c with
  | nil => rfl
  | cons x xs ih =>
      match b, c with
      | [], _ => cases hfirst
      | _ :: _, [] => cases hsecond
      | y :: ys, z :: zs =>
          simp only [atMost] at hfirst hsecond ⊢
          grind

/-- Sorted entries stand in the order of their keys. -/
theorem pairwise_sort (entries : List Entry) :
    (sort entries).Pairwise fun entry later => atMost entry.text later.text = true := by
  apply List.pairwise_mergeSort
  · intro first second third
    exact atMost_trans
  · intro first second
    exact atMost_total _ _

theorem keeps_sortValue (entry : Entry) : entry.Keeps (sortValue entry) := by
  refine ⟨rfl, rfl, ?_⟩
  change Exchanges _ entry.value ((mapEntries? sort entry.value).getD entry.value)
  cases hmap : mapEntries? sort entry.value with
  | none => exact .same _
  | some arranged => exact exchanges_of_mapEntries? sort_perm hmap

/-- What the last entries have in common tells where they begin. -/
theorem take_append_last (test : Entry → Bool) (entries : List Entry) :
    entries.take (entries.length - (entries.reverse.takeWhile test).reverse.length) ++
      (entries.reverse.takeWhile test).reverse = entries := by
  generalize hlast : (entries.reverse.takeWhile test).reverse = last
  have hsplit : entries = (entries.reverse.dropWhile test).reverse ++ last := by
    rw [← hlast, ← List.reverse_append, List.takeWhile_append_dropWhile, List.reverse_reverse]
  rw [hsplit, List.length_append, Nat.add_sub_cancel, List.take_left]

theorem rearranges_sortFields (entries : List Entry) : Rearranges entries (sortFields entries) := by
  have hsplit := take_append_last
    (!Entry.isNamed [Column.success, Column.statusMessage, Column.links] ·) entries
  rw [sortFields]
  generalize (entries.reverse.takeWhile _).reverse = attributes at hsplit ⊢
  generalize entries.take (entries.length - attributes.length) = fixed at hsplit ⊢
  subst hsplit
  -- The attributes before the nested map change places, and those in it do so inside of it.
  have hattributes := List.takeWhile_append_dropWhile
    (p := (!Entry.isNamed [Column.envProperties] ·)) (l := attributes)
  generalize attributes.takeWhile _ = columns at hattributes ⊢
  generalize attributes.dropWhile _ = nested at hattributes ⊢
  subst hattributes
  refine ⟨fixed ++ (columns ++ nested.map sortValue), ?_, ?_⟩
  · refine List.rel_append (forall₂_keeps_self _) (List.rel_append (forall₂_keeps_self _) ?_)
    rw [List.forall₂_map_right_iff]
    exact List.forall₂_same.mpr fun entry _ => keeps_sortValue entry
  · rw [List.append_assoc]
    exact (sort_perm columns).append_right _ |>.append_left _

theorem exchanges_of_sortEnvelope? {bytes sorted : List UInt8}
    (hsort : sortEnvelope? bytes = some sorted) : Exchanges Rearranges bytes sorted := by
  match bytes with
  | [] => cases hsort
  | outer :: rest =>
      obtain ⟨⟨_, table, rest⟩, htable, hsort⟩ := Option.bind_eq_some_iff.mp hsort
      rw [append_of_splitValue? htable]
      match rest with
      | [] => cases hsort
      | [_] => cases hsort
      | middle :: inner :: rest =>
          obtain ⟨⟨_, time, rest⟩, htime, hsort⟩ := Option.bind_eq_some_iff.mp hsort
          obtain ⟨fields, hfields, hsort⟩ := Option.bind_eq_some_iff.mp hsort
          cases hsort
          rw [append_of_splitValue? htime]
          simp only [List.cons_append, List.append_assoc]
          cases exchanges_of_mapEntries? rearranges_sortFields hfields with
          | same => exact .same _
          | entries front back hrelated =>
              have hexchanges := Exchanges.entries
                (outer :: table ++ middle :: inner :: time ++ front) back hrelated
              simpa using hexchanges

/-- An envelope that is brought into key order has entries of its fields in other places, and
nothing else. -/
theorem ofEnvelope_exchanges (envelope : ByteArray) :
    Exchanges Rearranges envelope.data.toList (ofEnvelope envelope).data.toList := by
  rw [ofEnvelope]
  cases hsort : sortEnvelope? envelope.data.toList with
  | none => exact .same _
  | some sorted =>
      have hexchanges := exchanges_of_sortEnvelope? hsort
      simpa using hexchanges

theorem size_ofEnvelope (envelope : ByteArray) : (ofEnvelope envelope).size = envelope.size := by
  have hlength := (ofEnvelope_exchanges envelope).length_eq fun _ _ => Rearranges.length_eq
  simpa using hlength

end TelemetryExport.KeyOrder
