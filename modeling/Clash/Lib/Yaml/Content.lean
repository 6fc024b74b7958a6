import Clash.Lib.Yaml.Scanner

/-!
# YAML content, events and layout

`Content` is what a YAML document says. A program that writes YAML through libyaml's emitter
passes it a row of events, and `compose` reads such a row back with a stack of the collections
still open: it accepts a row exactly when every collection is closed in stack order, every
mapping alternates a scalar key with one value, and the document holds a single root.

`Content.layout` is the block-style text that libyaml's emitter (0.2.5) writes for a content,
as the scanner then reads it: a block sequence below a mapping key is indentless, an empty
collection is written in flow style, and an empty plain scalar leaves no token.

## Main results

* `compose_document`: the events of a content compose to that content.
-/

namespace Yaml

/-- The content of a YAML node; the keys of mappings are scalars. -/
inductive Content where
  | scalar (v : CString)
  | sequence (cs : List Content)
  | mapping (es : List (CString × Content))

/-- `yaml_event_t`. The tags, styles and indicators are the same in every event that a
program with a fixed style emits, and are left out. -/
inductive Event where
  | streamStart
  | streamEnd
  | documentStart
  | documentEnd
  | mappingStart
  | mappingEnd
  | sequenceStart
  | sequenceEnd
  | scalar (v : CString)
  deriving DecidableEq, Repr

namespace Content

mutual

/-- The events of a content. -/
def events : Content → List Event
  | .scalar v => [.scalar v]
  | .sequence cs => .sequenceStart :: (itemEvents cs ++ [.sequenceEnd])
  | .mapping es => .mappingStart :: (entryEvents es ++ [.mappingEnd])

/-- The events of the items of a sequence. -/
def itemEvents : List Content → List Event
  | [] => []
  | c :: cs => events c ++ itemEvents cs

/-- The events of the entries of a mapping. -/
def entryEvents : List (CString × Content) → List Event
  | [] => []
  | (k, c) :: es => .scalar k :: (events c ++ entryEvents es)

end

theorem itemEvents_eq_flatMap (cs : List Content) : itemEvents cs = cs.flatMap events := by
  induction cs with
  | nil => rw [itemEvents, List.flatMap_nil]
  | cons c cs ih => rw [itemEvents, ih, List.flatMap_cons]

theorem entryEvents_append (es es' : List (CString × Content)) :
    entryEvents (es ++ es') = entryEvents es ++ entryEvents es' := by
  induction es with
  | nil => rw [entryEvents, List.nil_append, List.nil_append]
  | cons e es ih =>
    obtain ⟨k, c⟩ := e
    rw [List.cons_append, entryEvents, ih, entryEvents, List.cons_append, List.append_assoc]

/-- The events of a whole stream that holds one document. -/
def document (c : Content) : List Event :=
  [.streamStart, .documentStart] ++ events c ++ [.documentEnd, .streamEnd]

end Content

/-! ## Composing -/

/-- A collection still open, with its children so far, the last one first. -/
inductive Frame where
  | sequence (seen : List Content)
  /-- A mapping that expects a key or its end. -/
  | key (seen : List (CString × Content))
  /-- A mapping that expects the value of `k`. -/
  | value (seen : List (CString × Content)) (k : CString)

/-- How far a stream has been composed. -/
inductive Composer where
  | start
  | stream
  /-- Inside the document, with the open collections, the innermost one first. -/
  | node (stack : List Frame)
  | root (c : Content)
  | document (c : Content)
  | finished (c : Content)

namespace Composer

/-- Hand a complete node to the innermost open collection. -/
def deliver (c : Content) : List Frame → Option Composer
  | [] => some (.root c)
  | .sequence seen :: stack => some (.node (.sequence (c :: seen) :: stack))
  | .value seen k :: stack => some (.node (.key ((k, c) :: seen) :: stack))
  | .key seen :: stack =>
    match c with
    | .scalar k => some (.node (.value seen k :: stack))
    | _ => none

/-- A collection may start here: not where a key is expected. -/
def mayOpen : List Frame → Bool
  | .key _ :: _ => false
  | _ => true

/-- Take in one event. -/
def step : Composer → Event → Option Composer
  | .start, .streamStart => some .stream
  | .stream, .documentStart => some (.node [])
  | .node stack, .scalar v => deliver (.scalar v) stack
  | .node stack, .sequenceStart =>
    if mayOpen stack then some (.node (.sequence [] :: stack)) else none
  | .node stack, .mappingStart =>
    if mayOpen stack then some (.node (.key [] :: stack)) else none
  | .node (.sequence seen :: stack), .sequenceEnd => deliver (.sequence seen.reverse) stack
  | .node (.key seen :: stack), .mappingEnd => deliver (.mapping seen.reverse) stack
  | .root c, .documentEnd => some (.document c)
  | .document c, .streamEnd => some (.finished c)
  | _, _ => none

end Composer

/-- The content of a stream of one well-nested document. -/
def compose (es : List Event) : Option Content :=
  match es.foldlM Composer.step .start with
  | some (.finished c) => some c
  | _ => none

namespace Composer

open Content

theorem foldlM_cons_of_step {s s' : Composer} {e : Event} (h : step s e = some s')
    (es : List Event) : (e :: es).foldlM step s = es.foldlM step s' := by
  rw [List.foldlM_cons, h]
  rfl

theorem foldlM_append_of_fold {s s' : Composer} {es : List Event}
    (h : es.foldlM step s = some s') (es' : List Event) :
    (es ++ es').foldlM step s = es'.foldlM step s' := by
  rw [List.foldlM_append, h]
  rfl

theorem foldlM_singleton (s : Composer) (e : Event) : [e].foldlM step s = step s e :=
  bind_pure (step s e)

mutual

/-- Where a collection may start, the events of a content deliver it. -/
theorem foldlM_events (stack : List Frame) (hstack : mayOpen stack = true) :
    ∀ c : Content, (events c).foldlM step (.node stack) = deliver c stack
  | .scalar v => by
    rw [events, foldlM_singleton, step]
  | .sequence cs => by
    have hopen : step (.node stack) .sequenceStart = some (.node (.sequence [] :: stack)) :=
      if_pos hstack
    rw [events, foldlM_cons_of_step hopen, foldlM_append_of_fold (foldlM_itemEvents stack [] cs),
      foldlM_singleton, step, List.append_nil, List.reverse_reverse]
  | .mapping es => by
    have hopen : step (.node stack) .mappingStart = some (.node (.key [] :: stack)) :=
      if_pos hstack
    rw [events, foldlM_cons_of_step hopen, foldlM_append_of_fold (foldlM_entryEvents stack [] es),
      foldlM_singleton, step, List.append_nil, List.reverse_reverse]

/-- The events of the items of a sequence extend the innermost sequence. -/
theorem foldlM_itemEvents (stack : List Frame) (seen : List Content) : ∀ cs : List Content,
    (itemEvents cs).foldlM step (.node (.sequence seen :: stack)) =
      some (.node (.sequence (cs.reverse ++ seen) :: stack))
  | [] => by
    rw [itemEvents]
    rfl
  | c :: cs => by
    rw [itemEvents, foldlM_append_of_fold (foldlM_events _ rfl c),
      foldlM_itemEvents stack (c :: seen) cs, List.reverse_cons, List.append_assoc]
    rfl

/-- The events of the entries of a mapping extend the innermost mapping. -/
theorem foldlM_entryEvents (stack : List Frame) (seen : List (CString × Content)) :
    ∀ es : List (CString × Content),
      (entryEvents es).foldlM step (.node (.key seen :: stack)) =
        some (.node (.key (es.reverse ++ seen) :: stack))
  | [] => by
    rw [entryEvents]
    rfl
  | (k, c) :: es => by
    have hkey : step (.node (.key seen :: stack)) (.scalar k) =
        some (.node (.value seen k :: stack)) := rfl
    rw [entryEvents, foldlM_cons_of_step hkey, foldlM_append_of_fold (foldlM_events _ rfl c),
      foldlM_entryEvents stack ((k, c) :: seen) es, List.reverse_cons, List.append_assoc]
    rfl

end

end Composer

/-- The events of a content compose to that content. -/
theorem compose_document (c : Content) : compose c.document = some c := by
  have hstart : [Event.streamStart, .documentStart].foldlM Composer.step .start =
      some (.node []) := rfl
  have hroot : c.events.foldlM Composer.step (.node []) = some (.root c) :=
    Composer.foldlM_events [] rfl c
  have hfold : c.document.foldlM Composer.step .start = some (.finished c) := by
    rw [Content.document, List.append_assoc, Composer.foldlM_append_of_fold hstart,
      Composer.foldlM_append_of_fold hroot]
    rfl
  rw [compose, hfold]

/-! ## Layout -/

namespace Content

mutual

/-- The block-style text of a content. `underKey` tells whether it is the value of a key. -/
def layout (underKey : Bool) : Content → Block
  | .scalar v =>
    if v = [] then .leaf [] Block.flat_nil else .plain v
  | .sequence [] => .leaf [.flowSequenceStart, .flowSequenceEnd] (by decide)
  | .sequence (c :: cs) =>
    if underKey then .indentless (layout false c :: itemLayouts cs)
    else .sequence (layout false c :: itemLayouts cs)
  | .mapping [] => .leaf [.flowMappingStart, .flowMappingEnd] (by decide)
  | .mapping ((k, c) :: es) => .mapping ((k, layout true c) :: entryLayouts es)

/-- The block-style text of the items of a sequence. -/
def itemLayouts : List Content → List Block
  | [] => []
  | c :: cs => layout false c :: itemLayouts cs

/-- The block-style text of the entries of a mapping. -/
def entryLayouts : List (CString × Content) → List (CString × Block)
  | [] => []
  | (k, c) :: es => (k, layout true c) :: entryLayouts es

end

theorem itemLayouts_eq_map (cs : List Content) : itemLayouts cs = cs.map (layout false) := by
  induction cs with
  | nil => rw [itemLayouts, List.map_nil]
  | cons c cs ih => rw [itemLayouts, ih, List.map_cons]

@[simp] theorem entryLayouts_nil : entryLayouts [] = [] := by
  rw [entryLayouts]

@[simp] theorem entryLayouts_cons (k : CString) (c : Content) (es : List (CString × Content)) :
    entryLayouts ((k, c) :: es) = (k, layout true c) :: entryLayouts es := by
  rw [entryLayouts]

/-- A scalar that is not empty is written as a scalar. -/
theorem layout_scalar {underKey : Bool} {v : CString} (hv : v ≠ []) :
    layout underKey (.scalar v) = .plain v := by
  rw [layout, if_neg hv]

/-- A sequence below a key is indentless, unless it is empty. -/
theorem layout_sequence {cs : List Content} (hcs : cs ≠ []) :
    layout true (.sequence cs) = .indentless (cs.map (layout false)) := by
  obtain ⟨c, cs, rfl⟩ := List.exists_cons_of_ne_nil hcs
  rw [layout, if_pos rfl, itemLayouts_eq_map, List.map_cons]

theorem layout_mapping {underKey : Bool} {es : List (CString × Content)} (hes : es ≠ []) :
    layout underKey (.mapping es) = .mapping (entryLayouts es) := by
  obtain ⟨⟨k, c⟩, es, rfl⟩ := List.exists_cons_of_ne_nil hes
  rw [layout, entryLayouts]

/-- The tokens of a stream that holds one document without `---`. -/
def stream (c : Content) : List Token :=
  .streamStart :: ((layout false c).tokens ++ [.streamEnd])

end Content

end Yaml
