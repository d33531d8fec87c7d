import Placeholder.Proofs.Command.Lines

/-! A request is carried out step by step, and nothing is printed before the last step. -/

namespace Placeholder.Command

/-- What the steps of a run can change. -/
structure Console where
  source : Source
  /-- What has been printed. -/
  output : String := ""

/-- A step of a run, which is the last one when it fails. -/
abbrev Step (α : Type) :=
  ExceptT Failure (StateM Console) α

namespace Step

/-- A step that only draws words. -/
def ofDraw {α : Type} (draw : Draw α) : Step α := do
  let console ← get
  let (value, source) := draw.run console.source
  set { console with source }
  return value

/-- A line is printed. -/
def print (line : String) : Step Unit :=
  modify fun console => { console with output := console.output ++ (line ++ "\n") }

end Step

/-- The directives of the command line, or else those that are read from the standard input. -/
def Request.readTexts (request : Request) (input : ByteArray) : Except Failure (List String) :=
  if request.directives.isEmpty then
    (readLines input.data.toList).mapError .unreadableInput
  else .ok request.directives

/-- Each text is resolved a number of times, and whatever can be shown is put behind the lines. -/
def resolveAll (resolver : Resolver) (count : Nat) (json : Bool) (texts : List String) :
    Draw (List String) :=
  texts.foldlM (fun lines text =>
    (List.range count).foldlM (fun lines _ => do
      match Value.render (← resolver.mock text) json with
      | some line => return lines ++ [line]
      | none => return lines) lines) []

/-- The steps of a request. -/
def Request.steps (request : Request) (surroundings : Surroundings) : Step Unit := do
  let table ← liftM (request.settings.table surroundings.file)
  let texts ← liftM (request.readTexts surroundings.input)
  let resolver : Resolver := { clock := surroundings.clock, fallback := .table table }
  let lines ← Step.ofDraw (resolveAll resolver request.settings.count request.settings.json texts)
  lines.forM Step.print

/-- The exit status and the output of a request that is carried out step by step. -/
def Request.carryOut (request : Request) (surroundings : Surroundings) (source : Source) :
    Nat × String :=
  match (request.steps surroundings).run.run { source } with
  | (.ok (), console) => (0, console.output)
  | (.error _, console) => (1, console.output)

section Gathering

variable {m : Type → Type} [Monad m] [LawfulMonad m] {α β γ : Type}

/-- What is put behind a list item by item is what all the items give together. -/
theorem foldlM_append (gather : α → m (List β)) (items : List α) (start : List β) :
    items.foldlM (fun gathered item => (gathered ++ ·) <$> gather item) start =
      (fun parts => start ++ parts.flatten) <$> items.mapM gather := by
  induction items generalizing start with
  | nil => simp
  | cons item items ih =>
    simp only [← bind_pure_comp] at ih ⊢
    simp only [List.foldlM_cons, List.mapM_cons, ih, bind_assoc, pure_bind, List.flatten_cons,
      List.append_assoc]

/-- Results are changed one by one or all at the end. -/
theorem mapM_map_result (change : β → γ) (get : α → m β) (items : List α) :
    items.mapM (fun item => change <$> get item) = List.map change <$> items.mapM get := by
  induction items with
  | nil => simp
  | cons item items ih =>
    simp only [← bind_pure_comp] at ih ⊢
    simp only [List.mapM_cons, ih, bind_assoc, pure_bind, List.map_cons]

end Gathering

/-- The lines of a text are gathered in the order of its results. -/
theorem foldlM_render (resolver : Resolver) (count : Nat) (json : Bool) (text : String)
    (lines : List String) :
    (List.range count).foldlM (fun lines _ => do
        match Value.render (← resolver.mock text) json with
        | some line => return lines ++ [line]
        | none => return lines) lines =
      (lines ++ ·) <$> (List.filterMap id <$>
        Draw.times count do return Value.render (← resolver.mock text) json) := by
  -- A result that cannot be shown gives no line.
  have step : (fun (lines : List String) (_ : Nat) => (do
        match Value.render (← resolver.mock text) json with
        | some line => return lines ++ [line]
        | none => return lines : Draw (List String))) =
      fun lines _ => (lines ++ ·) <$> (Option.toList <$>
        (do return Value.render (← resolver.mock text) json : Draw (Option String))) := by
    funext lines _
    simp only [map_bind, map_pure]
    congr 1
    funext value
    cases Value.render value json with
    | none => simp
    | some line => simp
  have shown : ∀ results : List (Option String),
      (results.map Option.toList).flatten = results.filterMap id := by
    intro results
    induction results with
    | nil => rfl
    | cons result results ih =>
      cases result with
      | none => simpa using ih
      | some line => simpa using ih
  rw [step, foldlM_append, mapM_map_result, Functor.map_map, Functor.map_map]
  simp only [shown]
  rfl

/-- The lines of all the texts are gathered in the order of the texts. -/
theorem resolveAll_eq (resolver : Resolver) (count : Nat) (json : Bool) (texts : List String) :
    resolveAll resolver count json texts = resolver.lines count json texts := by
  unfold resolveAll
  simp only [foldlM_render]
  rw [foldlM_append, mapM_map_result, Resolver.lines]
  rw [Functor.map_map, ← bind_pure_comp]
  simp only [List.nil_append, List.filterMap_flatten]

/-- The texts that are read line by line are those of the whole input. -/
theorem readTexts_eq (request : Request) (input : ByteArray) :
    request.readTexts input = request.texts input := by
  have bytes : input.data.toList.toByteArray = input :=
    ByteArray.ext (Array.toList_inj.mp List.toList_data_toByteArray)
  unfold Request.readTexts Request.texts
  cases request.directives with
  | nil =>
    rw [List.isEmpty_nil, if_pos rfl, readLines_eq, bytes]
    cases textOf input with
    | error cause => rfl
    | ok text => rfl
  | cons text others => rfl

/-- Lines are printed behind what has been printed before. -/
theorem print_lines (lines : List String) (console : Console) :
    (lines.forM Step.print).run.run console =
      (.ok (),
        { console with output := console.output ++ String.join (lines.map (· ++ "\n")) }) := by
  induction lines generalizing console with
  | nil =>
    rw [List.map_nil, String.join_nil, String.append_empty]
    rfl
  | cons line lines ih =>
    have first := ih { console with output := console.output ++ (line ++ "\n") }
    rw [List.map_cons, String.join_cons, ← String.append_assoc]
    exact first

/-- What has not failed leaves no trace on the console. -/
theorem liftM_ok_bind {α β : Type} (value : α) (next : α → Step β) :
    (liftM (.ok value : Except Failure α) : Step α) >>= next = next value :=
  rfl

/-- The last steps of a request print the lines that have been drawn. -/
theorem ofDraw_print (draw : Draw (List String)) (source : Source) :
    (Step.ofDraw draw >>= fun lines => lines.forM Step.print).run.run { source } =
      (.ok (), { source := (draw.run source).2
                 output := String.join ((draw.run source).1.map (· ++ "\n")) }) := by
  have printed := print_lines (draw.run source).1 { source := (draw.run source).2 }
  rw [String.empty_append] at printed
  exact printed

/-- The steps come to the same end as the run. -/
theorem carryOut_eq (request : Request) (surroundings : Surroundings) (source : Source) :
    request.carryOut surroundings source =
      (((request.run surroundings).run source).1.status,
        ((request.run surroundings).run source).1.output) := by
  -- Both fail at the same step, before any word is drawn.
  unfold Request.carryOut Request.steps Request.run
  rw [readTexts_eq]
  simp only [resolveAll_eq]
  cases request.settings.table surroundings.file with
  | error cause => rfl
  | ok table =>
    cases request.texts surroundings.input with
    | error cause => rfl
    | ok texts =>
      rw [liftM_ok_bind, liftM_ok_bind, ofDraw_print]
      rfl

end Placeholder.Command
