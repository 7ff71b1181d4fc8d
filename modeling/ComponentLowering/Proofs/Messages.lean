import ComponentLowering.Proofs.Survivors
/-!
What the pass writes to a logger, read off the tree that it leaves. A line about a removed attribute
goes with a diagnostic of that tree, and a line about a kept one with an attribute that still has
complex content there (`account`). The lines come in the order of the tags (`snd_run_visit`).
-/

namespace ComponentLowering

namespace Logger

/-- A message as it reaches the console, behind the scopes it came through. -/
def text : Logger → String → String
  | nested inner scope, message => inner.text (scope ++ ": " ++ message)
  | _, message => message

theorem write_of_level {logger : Logger} (h : logger.level = .debug) (level : Level)
    (message : String) : logger.write level message = [⟨level, logger.text message⟩] := by
  induction logger generalizing message with
  | console _ => rfl
  | null => cases h
  | nested inner scope ih => exact ih h _

/-- At the least severe level every message makes one line. -/
theorem log_of_level {logger : Logger} (h : logger.level = .debug) (level : Level)
    (message : String) : logger.log level message = [⟨level, logger.text message⟩] := by
  have henabled : logger.isEnabled level = true := by
    rw [isEnabled, h]
    cases level <;> rfl
  rw [log, if_pos henabled, write_of_level h]

end Logger

namespace ContentEvent

def level : ContentEvent → Level
  | kept .. => .debug
  | removed .. => .info

def message : ContentEvent → String
  | kept attributeName tagName =>
    "keeping complex content of '" ++ attributeName ++ "' on tag helper <" ++ tagName ++ ">"
  | removed attributeName tagName =>
    "removed attribute '" ++ attributeName ++ "' with complex content from component <" ++
      tagName ++ ">"

theorem log_eq (event : ContentEvent) : event.log = LogM.tell event.level event.message := by
  cases event <;> rfl

/-- The line that tells of an event. -/
def line (logger : Logger) (event : ContentEvent) : Line :=
  ⟨event.level, logger.text event.message⟩

theorem snd_run_log {logger : Logger} (h : logger.level = .debug) (event : ContentEvent) :
    (event.log.run logger).2 = [event.line logger] := by
  rw [log_eq]
  exact Logger.log_of_level h event.level event.message

end ContentEvent

/-- The name that the message of a diagnostic ends with, in quotation marks. -/
def Diagnostic.quoted (diagnostic : Diagnostic) : String :=
  String.ofList (diagnostic.message.toList.dropWhile (· ≠ '\x27')).tail.dropLast

theorem Diagnostic.quoted_unsupportedComplexContent (span : Option Span) (attributeName : String) :
    (unsupportedComplexContent span attributeName).quoted = attributeName := by
  have hstart : ∀ rest : List Char,
      ("Component attributes do not support complex content (mixed code and markup). Attribute: '"
        ++ String.ofList rest).toList.dropWhile (· ≠ '\x27') = '\x27' :: rest := by
    intro rest
    have hrest : (String.ofList rest).toList = rest := String.toList_ofList
    rw [String.toList_append, hrest]
    rfl
  have hmessage : (unsupportedComplexContent span attributeName).message =
      "Component attributes do not support complex content (mixed code and markup). Attribute: '" ++
        String.ofList (attributeName.toList ++ ['\x27']) := by
    rw [String.ofList_append, String.ofList_toList, ← String.append_assoc]
    rfl
  rw [quoted, hmessage, hstart, List.tail_cons, List.dropLast_concat, String.ofList_toList]

namespace Node

theorem quoted_removal (binding : Node) :
    binding.removal.quoted = binding.attributeName?.getD "" :=
  Diagnostic.quoted_unsupportedComplexContent binding.span _

/-! ### Diagnostics and complex attributes of a tree -/

def tagName? (node : Node) : Option String :=
  match node.kind with
  | .tagHelper tagName _ => some tagName
  | _ => none

/-- All diagnostics of a tree in the order of `allDiagnostics`, each with the node that carries
it. -/
def reports (node : Node) : List (Diagnostic × Node) :=
  node.nodes.flatMap fun carrier => carrier.diagnostics.map fun diagnostic => (diagnostic, carrier)

theorem map_fst_reports (node : Node) : node.reports.map Prod.fst = node.allDiagnostics := by
  rw [reports, allDiagnostics_eq, List.map_flatMap]
  apply List.flatMap_congr
  intro carrier _
  rw [List.map_map]
  exact List.map_id' carrier.diagnostics

/-- The name of an attribute whose content is complex. -/
def complexName? (node : Node) : Option String :=
  if (classify node.children).1 = .complex then node.attributeName? else none

theorem complexName?_eq (node : Node) :
    node.complexName? =
      if (node.reading 0).isMixed then some (node.attributeName?.getD "") else none := by
  rw [complexName?, classify_eq, reading]
  cases node.attributeName? with
  | none => simp [Reading.isMixed]
  | some name => cases Reading.ofContent 0 node.children <;> simp [classified, Reading.isMixed]

/-- The attributes that the diagnostics of a tag name, with the name of the tag. -/
def reportedHere (node : Node) : List (String × String) :=
  match node.kind with
  | .tagHelper tagName _ => node.diagnostics.map fun diagnostic => (diagnostic.quoted, tagName)
  | _ => []

/-- The attributes of a tag that have complex content, from the last to the first, with the name of
the tag. -/
def complexHere (node : Node) : List (String × String) :=
  match node.kind with
  | .tagHelper tagName _ =>
    (node.children.filterMap complexName?).reverse.map fun name => (name, tagName)
  | _ => []

section

variable {node : Node}

theorem reportedHere_of_tag {tagName : String} {descriptors : List Descriptor}
    (h : node.kind = .tagHelper tagName descriptors) :
    node.reportedHere = node.diagnostics.map fun diagnostic => (diagnostic.quoted, tagName) := by
  simp only [reportedHere, h]

theorem complexHere_of_tag {tagName : String} {descriptors : List Descriptor}
    (h : node.kind = .tagHelper tagName descriptors) :
    node.complexHere =
      (node.children.filterMap complexName?).reverse.map fun name => (name, tagName) := by
  simp only [complexHere, h]

theorem kind_of_tag (h : node.tag = .tagHelper) :
    ∃ tagName descriptors, node.kind = .tagHelper tagName descriptors := by
  rcases node.kind_cases with hkind | hkind | ⟨hne, _⟩
  · exact hkind
  · exact absurd h (tag_of_expression hkind)
  · exact absurd h hne

theorem kind_ne_of_not_tag (h : node.tag ≠ .tagHelper) (tagName : String)
    (descriptors : List Descriptor) : node.kind ≠ .tagHelper tagName descriptors := by
  intro hkind
  rw [tag, hkind] at h
  exact h rfl

theorem reportedHere_of_not_tag (h : node.tag ≠ .tagHelper) : node.reportedHere = [] := by
  unfold reportedHere
  split
  · exact absurd ‹_› (kind_ne_of_not_tag h _ _)
  · rfl

theorem complexHere_of_not_tag (h : node.tag ≠ .tagHelper) : node.complexHere = [] := by
  unfold complexHere
  split
  · exact absurd ‹_› (kind_ne_of_not_tag h _ _)
  · rfl

end

/-- The attributes that have complex content, by tag in pre-order. -/
def complexAttributes (node : Node) : List (String × String) :=
  node.nodes.flatMap complexHere

/-! ### Trees without diagnostics -/

theorem allDiagnostics_eq_nil {node : Node} :
    node.allDiagnostics = [] ↔
      node.diagnostics = [] ∧ ∀ child ∈ node.children, child.allDiagnostics = [] := by
  simp only [allDiagnostics_eq, node.nodes_eq, List.flatMap_cons, List.append_eq_nil_iff,
    List.flatMap_assoc, List.flatMap_eq_nil_iff]

theorem allDiagnostics_unmarked {node : Node} (h : node.allDiagnostics = []) (count : Nat) :
    (node.unmarked count).allDiagnostics = [] := by
  induction node using bySize with
  | step node ih =>
      obtain ⟨hown, hchildren⟩ := allDiagnostics_eq_nil.mp h
      have hall : ∀ nodes : List Node, (∀ child ∈ nodes, child ∈ node.children) →
          ∀ child ∈ nodes.map (unmarked count), child.allDiagnostics = [] := by
        intro nodes hsub child hchild
        obtain ⟨source, hsource, rfl⟩ := List.mem_map.mp hchild
        have hmem := hsub source hsource
        exact ih source (size_lt_of_mem hmem) (hchildren source hmem)
      apply allDiagnostics_eq_nil.mpr
      by_cases hkind : node.kind = .expression
      · rw [unmarked_of_expression count hkind]
        exact ⟨hown, hall _ fun _ => mem_of_mem_dropMarkers⟩
      · rw [unmarked_of_ne count hkind]
        exact ⟨hown, hall _ fun _ hc => hc⟩

theorem allDiagnostics_stripMarkers {node : Node} (h : node.allDiagnostics = []) :
    node.stripMarkers.allDiagnostics = [] := by
  obtain ⟨hown, hchildren⟩ := allDiagnostics_eq_nil.mp h
  rw [stripMarkers_eq]
  refine allDiagnostics_eq_nil.mpr ⟨hown, ?_⟩
  intro child hchild
  obtain ⟨source, hsource, rfl⟩ := List.mem_map.mp hchild
  exact allDiagnostics_unmarked (hchildren source hsource) 1

theorem allDiagnostics_unwrapped {binding expression part : Node}
    (h : binding.allDiagnostics = []) (hbinding : binding.children = [expression])
    (hpart : part.allDiagnostics = []) :
    (binding.unwrapped expression part).allDiagnostics = [] := by
  obtain ⟨hown, hchildren⟩ := allDiagnostics_eq_nil.mp h
  obtain ⟨hexpression, _⟩ := allDiagnostics_eq_nil.mp (hchildren expression (by simp [hbinding]))
  have hwith : ({ expression with children := [part] } : Node).allDiagnostics = [] := by
    apply allDiagnostics_eq_nil.mpr
    exact ⟨hexpression, List.forall_mem_singleton.mpr hpart⟩
  apply allDiagnostics_eq_nil.mpr
  exact ⟨hown, List.forall_mem_singleton.mpr hwith⟩

end Node

namespace ComplexContent

open Node (removals)

/-! ### One tag -/

/-- What a check tells of the children of a tag, from the last to the first. -/
theorem events_checkChildren (isComponent : Bool) (tagName : String) (children : List Node) :
    (checkChildren isComponent tagName children).events =
      (children.filterMap Node.complexName?).reverse.map fun name =>
        if isComponent then .removed name tagName else .kept name tagName := by
  induction children with
  | nil => rfl
  | cons child later ih =>
      rw [List.filterMap_cons, Node.complexName?]
      show (checkChild isComponent tagName child
        (checkChildren isComponent tagName later)).events = _
      unfold checkChild
      cases child.attributeName? with
      | none => simp only [ite_self]; exact ih
      | some name =>
          cases hclassify : Node.classify child.children with
          | mk shape content =>
              cases shape with
              | simple => exact ih
              | complex => cases isComponent <;> simp [ih]

/-- What is told of a tag once it is settled, read off the tag as it then is. -/
def account (node : Node) : List ContentEvent :=
  (node.reportedHere.map fun told => .removed told.1 told.2) ++
    node.complexHere.map fun told => .kept told.1 told.2

section

variable {gate : Descriptor → Bool} {isComponent : Bool} {child kept : Node}

theorem kind_settleChild (h : settleChild gate isComponent child = some kept) :
    kept.kind = child.kind := by
  unfold settleChild at h
  cases hreading : child.reading 0 with
  | mixed =>
      rw [hreading] at h
      cases isComponent with
      | true => cases h
      | false => cases h; exact kind_settle gate child
  | whole => rw [hreading] at h; cases h; exact kind_settle gate child
  | _ => rw [hreading] at h; cases h; rfl

/-- What stays of an attribute has complex content if the attribute had. -/
theorem complexName?_settleChild (h : settleChild gate isComponent child = some kept) :
    kept.complexName? = child.complexName? := by
  rw [Node.complexName?_eq, Node.complexName?_eq, Node.attributeName?_congr (kind_settleChild h)]
  rcases reading_settleChild h with ⟨hwhole, hsimple⟩ | ⟨hmixed, hcomplex, _⟩
  · rw [hwhole, hsimple]
    rfl
  · rw [hmixed, hcomplex]
    rfl

end

theorem filterMap_complexName?_of_component (gate : Descriptor → Bool) (children : List Node) :
    (children.filterMap (settleChild gate true)).filterMap Node.complexName? = [] := by
  rw [List.filterMap_filterMap, List.filterMap_eq_nil_iff]
  intro child _
  cases hchild : settleChild gate true child with
  | none => rfl
  | some kept =>
      rcases reading_settleChild hchild with ⟨hwhole, _⟩ | ⟨_, _, hplain⟩
      · rw [Option.bind_some, Node.complexName?_eq, hwhole]
        rfl
      · cases hplain

theorem filterMap_complexName?_of_plain (gate : Descriptor → Bool) (children : List Node) :
    (children.filterMap (settleChild gate false)).filterMap Node.complexName? =
      children.filterMap Node.complexName? := by
  rw [List.filterMap_filterMap]
  apply List.filterMap_congr
  intro child _
  obtain ⟨kept, hkept⟩ := settleChild_of_plain gate child
  rw [hkept, Option.bind_some, complexName?_settleChild hkept]

/-- The names in the reports on a component are those of its attributes with complex content. -/
theorem quoted_removals (children : List Node) :
    (removals true 0 children).map Diagnostic.quoted =
      (children.filterMap Node.complexName?).reverse := by
  induction children with
  | nil => rfl
  | cons child later ih =>
      rw [Node.removals_cons, List.map_append, ih, List.filterMap_cons, Node.complexName?_eq]
      cases (child.reading 0).isMixed with
      | true =>
          simp only [Bool.and_self, if_true, List.reverse_cons, ← child.quoted_removal]
          rfl
      | false => exact List.append_nil _

theorem account_of_not_tag {node : Node} (h : node.tag ≠ .tagHelper) : account node = [] := by
  rw [account, Node.reportedHere_of_not_tag h, Node.complexHere_of_not_tag h]
  rfl

/-- The account of a settled tag is what was told when it was checked. -/
theorem account_settle (gate : Descriptor → Bool) {node : Node} (h : node.diagnostics = []) :
    account (settle gate node) = (checkNode gate node).2 := by
  by_cases htag : node.tag = .tagHelper
  · obtain ⟨tagName, descriptors, hkind⟩ := Node.kind_of_tag htag
    have hsettled : (settle gate node).kind = .tagHelper tagName descriptors := by
      rw [kind_settle, hkind]
    rw [account, Node.reportedHere_of_tag hsettled, Node.complexHere_of_tag hsettled]
    simp only [settle_of_tag gate hkind, h, List.nil_append, checkNode, hkind, events_checkChildren]
    cases descriptors.any gate with
    | true =>
        rw [filterMap_complexName?_of_component, ← quoted_removals]
        simp only [List.map_map, List.reverse_nil, List.map_nil, List.append_nil, if_true]
        rfl
    | false =>
        have hnone : removals false 0 node.children = [] := by simp [removals]
        rw [filterMap_complexName?_of_plain, hnone]
        simp only [List.map_map, List.map_nil, List.nil_append, Bool.false_eq_true, if_false]
        rfl
  · have hsettled : (settle gate node).tag ≠ .tagHelper := by rwa [Node.tag, kind_settle]
    rw [account_of_not_tag hsettled, checkNode]
    split
    · exact absurd ‹_› (Node.kind_ne_of_not_tag htag _ _)
    · rfl

/-! ### A whole visit -/

theorem allDiagnostics_survivor {isComponent : Bool} {child kept : Node}
    (h : child.allDiagnostics = [])
    (hkept : (child.reading 0).survivor isComponent id Node.stripMarkers child = some kept) :
    kept.allDiagnostics = [] := by
  have hpart : ∀ {expression part : Node}, child.children = [expression] →
      part ∈ expression.children → part.allDiagnostics = [] := by
    intro expression part hcontent hmem
    obtain ⟨_, hchildren⟩ := Node.allDiagnostics_eq_nil.mp h
    have hexpression := hchildren expression (by simp [hcontent])
    exact (Node.allDiagnostics_eq_nil.mp hexpression).2 part hmem
  cases hreading : child.reading 0 with
  | whole => rw [hreading] at hkept; cases hkept; exact h
  | value expression part =>
      obtain ⟨hcontent, hmem⟩ := Node.part_of_value hreading
      rw [hreading] at hkept
      cases hkept
      exact Node.allDiagnostics_unwrapped h hcontent (hpart hcontent hmem)
  | template expression part =>
      obtain ⟨hcontent, hmem⟩ := Node.part_of_template hreading
      rw [hreading] at hkept
      cases hkept
      apply Node.allDiagnostics_unwrapped h hcontent
      exact Node.allDiagnostics_stripMarkers (hpart hcontent hmem)
  | mixed =>
      rw [hreading] at hkept
      cases isComponent with
      | true => cases hkept
      | false => cases hkept; exact h

theorem allDiagnostics_child (gate : Descriptor → Bool) {node : Node}
    (h : node.allDiagnostics = []) :
    ∀ child ∈ (checkNode gate node).1.children, child.allDiagnostics = [] := by
  obtain ⟨_, hchildren⟩ := Node.allDiagnostics_eq_nil.mp h
  rcases node.kind_cases with ⟨tagName, descriptors, hkind⟩ | hkind | ⟨htag, _⟩
  · rw [checkNode_of_tag gate hkind]
    intro kept hkept
    obtain ⟨child, hchild, hsome⟩ := List.mem_filterMap.mp hkept
    have hclean := hchildren child hchild
    exact allDiagnostics_survivor hclean hsome
  · rwa [checkNode_of_not_tag gate (Node.tag_of_expression hkind)]
  · rwa [checkNode_of_not_tag gate htag]

theorem snd_run_visit (gate : Descriptor → Bool) (node : Node) (logger : Logger) :
    ((visit gate node).run logger).2 =
      (checkNode gate node).2.flatMap (fun event => (event.log.run logger).2) ++
        (checkNode gate node).1.children.flatMap
          fun child => ((visit gate child).run logger).2 := by
  rw [visit]
  simp only [LogM.snd_run_bind, LogM.snd_run_forM, LogM.snd_run_mapM]
  have hchildren := List.flatMap_subtype (l := (checkNode gate node).1.children.attach)
    (f := fun child => ((visit gate child.1).run logger).2)
    (g := fun child => ((visit gate child).run logger).2) fun _ _ => rfl
  rw [List.unattach_attach] at hchildren
  rw [← hchildren]
  exact congrArg _ (List.append_nil _)

/-- In a tree without diagnostics, the lines of a visit tell of the tree that it leaves, node by
node. -/
theorem lines_visit (gate : Descriptor → Bool) {logger : Logger} (hlevel : logger.level = .debug)
    {node : Node} (h : node.allDiagnostics = []) :
    ((visit gate node).run logger).2 =
      ((settle gate node).nodes.flatMap account).map (ContentEvent.line logger) := by
  induction node using Node.bySize with
  | step node ih =>
      have hnode : account (settle gate node) = (checkNode gate node).2 :=
        account_settle gate (Node.allDiagnostics_eq_nil.mp h).1
      have hbelow : ((checkNode gate node).1.children.flatMap fun child =>
            ((visit gate child).run logger).2) =
          (((settle gate node).children.flatMap Node.nodes).flatMap account).map
            (ContentEvent.line logger) := by
        rw [settle_eq, List.flatMap_map, List.flatMap_assoc, List.map_flatMap]
        apply List.flatMap_congr
        intro child hchild
        have hsize := Nat.lt_of_lt_of_le (Node.size_lt_of_mem hchild) (size_checkNode_le gate node)
        exact ih child hsize (allDiagnostics_child gate h child hchild)
      rw [snd_run_visit, Node.nodes_eq, List.flatMap_cons, List.map_append, hnode, hbelow]
      simp only [ContentEvent.snd_run_log hlevel, ← List.map_eq_flatMap]

/-- Only tags carry diagnostics in what is left of a tree that had none. -/
theorem diagnostics_settle_of_not_tag (gate : Descriptor → Bool) {node : Node}
    (h : node.allDiagnostics = []) : ∀ left ∈ (settle gate node).nodes,
      left.tag ≠ .tagHelper → left.diagnostics = [] := by
  induction node using Node.bySize with
  | step node ih =>
      intro left hleft htag
      rw [Node.nodes_eq] at hleft
      rcases List.mem_cons.mp hleft with rfl | hbelow
      · have hnode : node.tag ≠ .tagHelper := by rwa [Node.tag, kind_settle] at htag
        rw [settle_of_not_tag gate hnode]
        exact (Node.allDiagnostics_eq_nil.mp h).1
      · obtain ⟨child, hchild, hmem⟩ := List.mem_flatMap.mp hbelow
        rw [settle_eq] at hchild
        obtain ⟨source, hsource, rfl⟩ := List.mem_map.mp hchild
        have hsize := Nat.lt_of_lt_of_le (Node.size_lt_of_mem hsource) (size_checkNode_le gate node)
        exact ih source hsize (allDiagnostics_child gate h source hsource) left hmem htag

/-! ### The pass -/

theorem filter_account_info (node : Node) :
    (account node).filter (fun event => event.level = .info) =
      node.reportedHere.map fun told => .removed told.1 told.2 := by
  rw [account, List.filter_append, List.filter_map, List.filter_map]
  simp [Function.comp_def, ContentEvent.level]

theorem filter_account_debug (node : Node) :
    (account node).filter (fun event => event.level = .debug) =
      node.complexHere.map fun told => .kept told.1 told.2 := by
  rw [account, List.filter_append, List.filter_map, List.filter_map]
  simp [Function.comp_def, ContentEvent.level]

theorem reports_settle (gate : Descriptor → Bool) {node : Node} (h : node.allDiagnostics = []) :
    (settle gate node).reports.map (fun report => (report.1.quoted, report.2.tagName?)) =
      ((settle gate node).nodes.flatMap Node.reportedHere).map
        fun told => (told.1, some told.2) := by
  rw [Node.reports, List.map_flatMap, List.map_flatMap]
  apply List.flatMap_congr
  intro left hleft
  by_cases htag : left.tag = .tagHelper
  · obtain ⟨tagName, descriptors, hkind⟩ := Node.kind_of_tag htag
    rw [Node.reportedHere_of_tag hkind, List.map_map, List.map_map]
    simp only [Function.comp_def, Node.tagName?, hkind]
  · rw [Node.reportedHere_of_not_tag htag, diagnostics_settle_of_not_tag gate h left hleft htag]
    rfl

/-- In a tree without diagnostics, the removals that the pass tells of are those that the
diagnostics of the tree it leaves report, and the attributes that it tells to keep are those that
have complex content there. -/
theorem execute_told (gate : Descriptor → Bool) (logger : Logger) (tree : Node)
    (hlevel : logger.level = .debug) (hroot : tree.fileKind? ≠ some .legacy)
    (hclean : tree.allDiagnostics = []) :
    ∃ removed kept : List (String × String),
      ((execute gate tree).run logger).2.filter (fun line => line.level = .info) =
          removed.map (fun told => (ContentEvent.removed told.1 told.2).line logger) ∧
        (outcome gate logger tree).reports.map
            (fun report => (report.1.quoted, report.2.tagName?)) =
          removed.map (fun told => (told.1, some told.2)) ∧
        (outcome gate logger tree).reports.map Prod.fst =
          (outcome gate logger tree).allDiagnostics ∧
        ((execute gate tree).run logger).2.filter (fun line => line.level = .debug) =
          kept.map (fun told => (ContentEvent.kept told.1 told.2).line logger) ∧
        (outcome gate logger tree).complexAttributes = kept := by
  have hexecute : execute gate tree = visit gate tree := if_neg hroot
  have hfilter : ∀ level : Level,
      ((execute gate tree).run logger).2.filter (fun line => line.level = level) =
        ((settle gate tree).nodes.flatMap fun left =>
          (account left).filter fun event => event.level = level).map
            (ContentEvent.line logger) := by
    intro level
    rw [hexecute, lines_visit gate hlevel hclean, List.filter_map, List.filter_flatMap]
    rfl
  rw [outcome_eq_settle gate logger hroot]
  refine ⟨(settle gate tree).nodes.flatMap Node.reportedHere, (settle gate tree).complexAttributes,
    ?_, reports_settle gate hclean, Node.map_fst_reports _, ?_, rfl⟩
  · simp only [hfilter, filter_account_info, ← List.map_flatMap, List.map_map]
    rfl
  · simp only [hfilter, filter_account_debug, ← List.map_flatMap, List.map_map]
    rfl

/-- One attribute of the outer tag is removed, and one of the inner tag is kept. -/
theorem told_nestedTemplates :
    nestedTemplates.allDiagnostics = [] ∧
      ((execute Descriptor.isComponent nestedTemplates).run (.console .debug)).2.filter
          (fun line => line.level = .info) =
        [⟨.info, "removed attribute 'mixed' with complex content from component <Outer>"⟩] ∧
      ((execute Descriptor.isComponent nestedTemplates).run (.console .debug)).2.filter
          (fun line => line.level = .debug) =
        [⟨.debug, "keeping complex content of 'mixed' on tag helper <inner>"⟩] := by
  have hclean : nestedTemplates.allDiagnostics = [] := by decide
  obtain ⟨removed, kept, hinfo, hreports, _, hdebug, hcomplex⟩ :=
    execute_told Descriptor.isComponent (.console .debug) nestedTemplates rfl (by decide) hclean
  have hinjective : Function.Injective fun told : String × String => (told.1, some told.2) := by
    rintro ⟨_, _⟩ ⟨_, _⟩ h
    cases h
    rfl
  have hremoved : removed = [("mixed", "Outer")] := by
    apply List.map_injective_iff.mpr hinjective
    rw [← hreports]
    decide +kernel
  refine ⟨hclean, ?_, ?_⟩
  · rw [hinfo, hremoved]
    decide
  · rw [hdebug, ← hcomplex]
    decide +kernel

end ComplexContent
end ComponentLowering
