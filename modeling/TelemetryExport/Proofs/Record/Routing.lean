import Mathlib.Data.List.Forall2
import TelemetryExport.Proofs.Record.LogEncoder
import TelemetryExport.Proofs.Record.TableName

/-! # Routing

An encoder stores its mappings as indices of templates, and the last mapping of the wildcard
category as the route of all other categories. Here the routes are told by the tables to
which they lead: what one mapping adds to an encoder, and from it the table to which a list
of mappings sends each category.
-/

namespace TelemetryExport

open MessagePack

namespace LogEncoder

variable {encoder next : LogEncoder} {configured : List Attribute}
  {table category target : String} {mapping : String × String}
  {earlier mappings : List (String × String)}

/-! ## Where a route leads -/

/-- The route goes to the table that a mapping names. -/
inductive LeadsTo (encoder : LogEncoder) : Route → String → Prop
  | table {index : Nat} {template : RecordTemplate}
      (hindex : encoder.templates[index]? = some template)
      (hnamed : template.tableName ≠ wildcard) :
      LeadsTo encoder (.table index) template.tableName
  | passThrough : LeadsTo encoder .passThrough wildcard

theorem getElem?_of_front {α : Type} {front whole : List α} {index : Nat} {item : α}
    (hfront : front <+: whole) (hitem : front[index]? = some item) :
    whole[index]? = some item := by
  obtain ⟨rest, rfl⟩ := hfront
  obtain ⟨hindex, -⟩ := List.getElem?_eq_some_iff.mp hitem
  rw [List.getElem?_append_left hindex, hitem]

/-- Templates that come later change no route. -/
theorem LeadsTo.mono {route : Route} (hleads : encoder.LeadsTo route target)
    (hfront : encoder.templates <+: next.templates) : next.LeadsTo route target := by
  cases hleads with
  | table hindex hnamed => exact .table (getElem?_of_front hfront hindex) hnamed
  | passThrough => exact .passThrough

theorem templateAt_of_getElem? {index : Nat} {template : RecordTemplate}
    (hindex : encoder.templates[index]? = some template) :
    encoder.templateAt index = template := by
  cases index with
  | zero => exact Option.some.inj hindex
  | succ index =>
      have hmapped : encoder.mapped[index]? = some template := by
        rw [← Array.getElem?_toList]
        exact hindex
      rw [templateAt, Array.getD_eq_getD_getElem?, hmapped, Option.getD_some]

/-! ## What a mapping adds -/

/-- The encoder can be extended by a mapping: its table has a template, or it is the one that
passes every category through. -/
def Accepts (configured : List Attribute) (mapping : String × String) : Prop :=
  if mapping.2 = wildcard then mapping.1 = wildcard
  else ∃ template, RecordTemplate.make mapping.2 configured = .ok template

theorem accepts_wildcard : Accepts configured (wildcard, wildcard) := by
  rw [Accepts, if_pos rfl]

/-- Every template of the encoder is one that can be made. -/
def Made (configured : List Attribute) (encoder : LogEncoder) : Prop :=
  ∀ template ∈ encoder.templates,
    RecordTemplate.make template.tableName configured = .ok template

theorem tableName_of_make {template : RecordTemplate}
    (hmake : RecordTemplate.make table configured = .ok template) :
    template.tableName = table := by
  rw [RecordTemplate.eq_ofParts_of_make hmake]
  rfl

theorem exists_of_withTable (hmade : Made configured encoder) {index : Nat}
    (hnext : encoder.withTable configured table = .ok (index, next)) :
    (∃ mapped, next = { encoder with mapped }) ∧ encoder.templates <+: next.templates ∧
      Made configured next ∧ ∃ template, RecordTemplate.make table configured = .ok template ∧
        next.templates[index]? = some template := by
  rcases cases_of_withTable hnext with
    ⟨rfl, template, hindex, rfl⟩ | ⟨-, rfl, template, hmake, rfl⟩
  · exact ⟨⟨_, rfl⟩, List.prefix_rfl, hmade, template,
      hmade template (List.mem_of_getElem? hindex), hindex⟩
  · have htemplates := encoder.templates_push template
    refine ⟨⟨_, rfl⟩, htemplates ▸ List.prefix_append _ _, ?_, template, hmake, ?_⟩
    · intro other hmem
      rw [htemplates] at hmem
      rcases List.mem_append.mp hmem with hmem | hmem
      · exact hmade other hmem
      · obtain rfl := List.mem_singleton.mp hmem
        rw [tableName_of_make hmake]
        exact hmake
    · rw [htemplates, List.getElem?_concat_length]

theorem exists_withTable {template : RecordTemplate}
    (hmake : RecordTemplate.make table configured = .ok template) :
    ∃ result, encoder.withTable configured table = .ok result := by
  unfold withTable
  split
  next found => exact ⟨_, rfl⟩
  next => exact ⟨_, except_bind_of_ok hmake⟩

/-- What an encoder is after one more mapping. It keeps the templates it had at their
indices, and the new route leads where the mapping says. -/
structure Extends (configured : List Attribute) (encoder : LogEncoder)
    (mapping : String × String) (next : LogEncoder) : Prop where
  accepts : Accepts configured mapping
  templates : encoder.templates <+: next.templates
  made : Made configured next
  defaultTemplate : next.defaultTemplate = encoder.defaultTemplate
  route : ∃ route, next.LeadsTo route mapping.2 ∧
    if mapping.1 = wildcard then next.routes = encoder.routes ∧ next.fallback = route
    else next.routes = encoder.routes.push (mapping.1, route) ∧ next.fallback = encoder.fallback

/-- Storing a route changes nothing else. -/
theorem Extends.of_route {routed : LogEncoder} {route : Route}
    (haccepts : Accepts configured mapping)
    (htemplates : encoder.templates <+: routed.templates) (hmade : Made configured routed)
    (hsame : ∃ mapped, routed = { encoder with mapped })
    (hleads : routed.LeadsTo route mapping.2) :
    Extends configured encoder mapping (routed.withRoute mapping.1 route) := by
  obtain ⟨mapped, rfl⟩ := hsame
  rw [withRoute]
  split
  next hwildcard =>
    exact ⟨haccepts, htemplates, hmade, rfl, route, hleads.mono List.prefix_rfl,
      by rw [if_pos hwildcard]; exact ⟨rfl, rfl⟩⟩
  next hnamed =>
    exact ⟨haccepts, htemplates, hmade, rfl, route, hleads.mono List.prefix_rfl,
      by rw [if_neg hnamed]; exact ⟨rfl, rfl⟩⟩

theorem extends_of_withMapping (hmade : Made configured encoder)
    (hnext : encoder.withMapping configured mapping = .ok next) :
    Extends configured encoder mapping next := by
  rcases cases_of_withMapping hnext with
    ⟨hpass, hcategory, rfl⟩ | ⟨hnamed, index, routed, hrouted, rfl⟩
  · have haccepts : Accepts configured mapping := by
      rw [Accepts, if_pos hpass]
      exact hcategory
    have hleads : encoder.LeadsTo .passThrough mapping.2 := by
      rw [hpass]
      exact .passThrough
    exact .of_route haccepts List.prefix_rfl hmade ⟨_, rfl⟩ hleads
  · obtain ⟨hsame, htemplates, hgrown, template, hmake, hindex⟩ :=
      exists_of_withTable hmade hrouted
    have hname := tableName_of_make hmake
    have haccepts : Accepts configured mapping := by
      rw [Accepts, if_neg hnamed]
      exact ⟨template, hmake⟩
    have hleads := LeadsTo.table hindex (by rw [hname]; exact hnamed)
    rw [hname] at hleads
    exact .of_route haccepts htemplates hgrown hsame hleads

theorem exists_withMapping (haccepts : Accepts configured mapping) :
    ∃ next, encoder.withMapping configured mapping = .ok next := by
  obtain ⟨category, target⟩ := mapping
  rw [Accepts] at haccepts
  rw [withMapping]
  by_cases hpass : target = wildcard
  · rw [if_pos hpass] at haccepts
    rw [if_pos hpass, if_pos haccepts]
    exact ⟨_, if_pos haccepts⟩
  · rw [if_neg hpass] at haccepts
    obtain ⟨template, hmake⟩ := haccepts
    obtain ⟨⟨index, routed⟩, hrouted⟩ :
        ∃ result, encoder.withTable configured target = .ok result := exists_withTable hmake
    rw [if_neg hpass]
    simp only [except_bind_of_ok hrouted]
    by_cases hcategory : category = wildcard
    · exact ⟨_, if_pos hcategory⟩
    · exact ⟨_, if_neg hcategory⟩

/-! ## Where the mappings lead -/

/-- The encoder has the routes of the mappings that it was given: those of named categories
in their order, and that of the last wildcard category. -/
structure Routed (table : String) (configured : List Attribute)
    (mappings : List (String × String)) (encoder : LogEncoder) : Prop where
  made : Made configured encoder
  defaultTable : encoder.defaultTemplate.tableName = table
  routes : List.Forall₂ (fun mapping route =>
      route.1 = mapping.1 ∧ encoder.LeadsTo route.2 mapping.2)
    (mappings.filter (·.1 ≠ wildcard)) encoder.routes.toList
  fallback : match (mappings.filter (·.1 = wildcard)).getLast? with
    | some mapping => encoder.LeadsTo encoder.fallback mapping.2
    | none => encoder.fallback = .table 0

/-- One more mapping adds its own route and keeps the others. -/
theorem Routed.withMapping (hrouted : Routed table configured earlier encoder)
    (hnext : encoder.withMapping configured mapping = .ok next) :
    Routed table configured (earlier ++ [mapping]) next := by
  have hextends := extends_of_withMapping hrouted.made hnext
  obtain ⟨route, hleads, hstored⟩ := hextends.route
  have hkept : List.Forall₂ (fun mapping route =>
      route.1 = mapping.1 ∧ next.LeadsTo route.2 mapping.2)
      (earlier.filter (·.1 ≠ wildcard)) encoder.routes.toList :=
    hrouted.routes.imp fun _ _ hroute => ⟨hroute.1, hroute.2.mono hextends.templates⟩
  refine ⟨hextends.made, by rw [hextends.defaultTemplate, hrouted.defaultTable], ?_, ?_⟩
  · rw [List.filter_append]
    by_cases hwildcard : mapping.1 = wildcard
    · rw [if_pos hwildcard] at hstored
      rw [List.filter_cons_of_neg (by simpa using hwildcard), List.filter_nil, List.append_nil,
        hstored.1]
      exact hkept
    · rw [if_neg hwildcard] at hstored
      rw [List.filter_cons_of_pos (by simpa using hwildcard), List.filter_nil, hstored.1,
        Array.toList_push]
      exact List.rel_append hkept (.cons ⟨rfl, hleads⟩ .nil)
  · rw [List.filter_append]
    by_cases hwildcard : mapping.1 = wildcard
    · rw [if_pos hwildcard] at hstored
      rw [List.filter_cons_of_pos (by simpa using hwildcard), List.filter_nil,
        List.getLast?_concat, hstored.2]
      exact hleads
    · rw [if_neg hwildcard] at hstored
      rw [List.filter_cons_of_neg (by simpa using hwildcard), List.filter_nil, List.append_nil,
        hstored.2]
      have hfallback := hrouted.fallback
      split at hfallback
      next hlast => exact hfallback.mono hextends.templates
      next => exact hfallback

theorem made_first {template : RecordTemplate} {listed : Option (List String)}
    (hmake : RecordTemplate.make table configured = .ok template) :
    Made configured ⟨template, #[], #[], .table 0, listed⟩ := by
  intro other hmem
  obtain rfl := List.mem_singleton.mp hmem
  rw [tableName_of_make hmake]
  exact hmake

theorem routed_of_make {listed : Option (List String)}
    (hmake : make table mappings configured listed = .ok encoder) :
    Routed table configured mappings encoder :=
  make_induction Routed.withMapping
    (fun _ htemplate => ⟨made_first htemplate, tableName_of_make htemplate, .nil, rfl⟩) hmake

theorem exists_withMappings_iff (hmade : Made configured encoder) :
    (∃ last, mappings.foldlM (LogEncoder.withMapping configured) encoder = .ok last) ↔
      ∀ mapping ∈ mappings, Accepts configured mapping := by
  induction mappings generalizing encoder with
  | nil => exact ⟨fun _ => List.forall_mem_nil _, fun _ => ⟨encoder, rfl⟩⟩
  | cons mapping rest ih =>
      rw [List.forall_mem_cons, List.foldlM_cons]
      constructor
      · rintro ⟨last, hlast⟩
        obtain ⟨middle, hmiddle, hlast⟩ := exists_of_except_bind hlast
        have hextends := extends_of_withMapping hmade hmiddle
        exact ⟨hextends.accepts, (ih hextends.made).mp ⟨last, hlast⟩⟩
      · rintro ⟨hfirst, hrest⟩
        obtain ⟨middle, hmiddle⟩ :
            ∃ middle, encoder.withMapping configured mapping = .ok middle :=
          exists_withMapping hfirst
        rw [except_bind_of_ok hmiddle]
        exact (ih (extends_of_withMapping hmade hmiddle).made).mpr hrest

/-- An encoder can be made wherever its default table and each mapping are accepted. -/
theorem exists_make_iff {listed : Option (List String)} :
    (∃ encoder, make table mappings configured listed = .ok encoder) ↔
      (∃ template, RecordTemplate.make table configured = .ok template) ∧
        ∀ mapping ∈ mappings, Accepts configured mapping := by
  constructor
  · rintro ⟨encoder, hmake⟩
    obtain ⟨template, htemplate, hmappings⟩ := exists_of_except_bind hmake
    exact ⟨⟨template, htemplate⟩,
      (exists_withMappings_iff (made_first htemplate)).mp ⟨encoder, hmappings⟩⟩
  · rintro ⟨⟨template, htemplate⟩, hmappings⟩
    rw [make, except_bind_of_ok htemplate]
    exact (exists_withMappings_iff (made_first htemplate)).mpr hmappings

/-! ## The table of a record -/

/-- The mapping that counts for a category: the first that names it, or else the last of the
wildcard category. -/
def mappingFor (mappings : List (String × String)) (category : String) :
    Option (String × String) :=
  ((mappings.filter (·.1 ≠ wildcard)).find? (·.1 == category)).or
    (mappings.filter (·.1 = wildcard)).getLast?

/-- The table to which a record with the category goes. -/
def tableFor (table : String) (mappings : List (String × String)) : Option String → String
  | none => table
  | some category =>
      match mappingFor mappings category with
      | none => table
      | some (_, target) =>
          if target = wildcard then (TableName.derived? category).getD table else target

/-- Of related mappings and routes the first with a category are found together. -/
theorem find?_of_forall₂ {leads : Route → String → Prop} {routes : List (String × Route)}
    (hroutes : List.Forall₂ (fun mapping route => route.1 = mapping.1 ∧ leads route.2 mapping.2)
      mappings routes) (category : String) :
    match mappings.find? (·.1 == category) with
    | some mapping => ∃ route, routes.find? (·.1 == category) = some route ∧
        leads route.2 mapping.2
    | none => routes.find? (·.1 == category) = none := by
  induction hroutes with
  | nil => rfl
  | @cons mapping route mappings routes hroute _ ih =>
      by_cases hsame : mapping.1 = category
      · have hfirst : (mapping.1 == category) = true := beq_iff_eq.mpr hsame
        have hrouteFirst : (route.1 == category) = true := by rw [hroute.1, hfirst]
        simp only [List.find?_cons, hfirst, hrouteFirst]
        exact ⟨route, rfl, hroute.2⟩
      · have hfirst : (mapping.1 == category) = false := beq_eq_false_iff_ne.mpr hsame
        have hrouteFirst : (route.1 == category) = false := by rw [hroute.1, hfirst]
        simp only [List.find?_cons, hfirst, hrouteFirst]
        exact ih

/-- The route of a category leads where the mapping that counts for it says. -/
theorem Routed.route_some (hrouted : Routed table configured mappings encoder)
    (category : String) :
    match mappingFor mappings category with
    | some mapping => encoder.LeadsTo (encoder.route (some category)) mapping.2
    | none => encoder.route (some category) = .table 0 := by
  have hfound := find?_of_forall₂ hrouted.routes category
  have hroutes : encoder.routes.toList.find? (·.1 == category) =
      encoder.routes.find? (·.1 == category) := Array.find?_toList
  rw [hroutes] at hfound
  rw [mappingFor]
  cases hmapping : (mappings.filter (·.1 ≠ wildcard)).find? (·.1 == category) with
  | some mapping =>
      rw [hmapping] at hfound
      obtain ⟨found, hroute, hleads⟩ := hfound
      rw [Option.some_or]
      simp only [route, hroute]
      exact hleads
  | none =>
      rw [hmapping] at hfound
      rw [Option.none_or]
      simp only [route, hfound]
      exact hrouted.fallback

theorem Routed.tableOf_eq (hrouted : Routed table configured mappings encoder)
    (record : LogRecord) : encoder.tableOf record = tableFor table mappings record.category := by
  rw [tableOf, target]
  cases record.category with
  | none => exact hrouted.defaultTable
  | some category =>
      have hroute := hrouted.route_some category
      rw [tableFor]
      cases hmapping : mappingFor mappings category with
      | none =>
          rw [hmapping] at hroute
          rw [hroute]
          exact hrouted.defaultTable
      | some mapping =>
          rw [hmapping] at hroute
          obtain ⟨named, target⟩ := mapping
          generalize encoder.route (some category) = route at hroute
          cases hroute with
          | table hindex hnamed =>
              simp only [templateAt_of_getElem? hindex, Option.getD_none, if_neg hnamed]
          | passThrough =>
              simp only [Option.bind_some, hrouted.defaultTable, TableName.ofCategory?_eq]
              exact (if_pos rfl).symm

end LogEncoder

end TelemetryExport
