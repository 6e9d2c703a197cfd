import HostLisp.Proofs.PrintedEvaluation
import HostLisp.Proofs.StandardMeaning

/-!
# Grouping of arguments

With the standard operations alone, addition, conjunction and disjunction of any number of arguments
may be done in groups.

## Main results

`Standard.result?_grouped`: what a function makes of its results for two groups is what it makes of
both groups at once.

`evaluate_grouped`: a call with two calls of the same function as its arguments has a value exactly
if the call with all of their arguments has, and then the same.

## Proof strategy

Each operation takes the values of one type and gives one of that type, so it takes its own results.
Addition has two operations, and only for no arguments at all do both apply. The texts are those of
forms, which mean what their arguments come to.
-/

namespace HostLisp

variable {σ : Type}

namespace Standard

/-! ### Functions with one operation -/

/-- Values of a type are combined to one of the type, in groups or at once. -/
structure Combines (type : TypeName) (combine : List Value → Value) : Prop where
  closed : ∀ args, type.holds (combine args) = true
  grouped : ∀ args args', combine [combine args, combine args'] = combine (args ++ args')

theorem numbers_append (args args' : List Value) :
    numbers (args ++ args') = numbers args ++ numbers args' := List.filterMap_append

theorem texts_append (args args' : List Value) :
    texts (args ++ args') = texts args ++ texts args' := List.filterMap_append

theorem truths_append (args args' : List Value) :
    truths (args ++ args') = truths args ++ truths args' := List.filterMap_append

theorem addNumbers_combines : Combines .int addNumbers := by
  constructor
  · intro args
    rfl
  · intro args args'
    have groups : addNumbers [addNumbers args, addNumbers args'] =
        .int ((numbers args).foldl (· + ·) 0 + (numbers args').foldl (· + ·) 0) := by
      simp [addNumbers, numbers, Value.wholeNumber?]
    -- The second sum may begin with the first one, as addition is associative.
    have later : (numbers args').foldl (· + ·) ((numbers args).foldl (· + ·) 0 + 0) =
        (numbers args).foldl (· + ·) 0 + (numbers args').foldl (· + ·) 0 := List.foldl_assoc
    rw [groups, addNumbers, numbers_append, List.foldl_append, ← later, Int.add_zero]

theorem addTexts_combines : Combines .text addTexts := by
  constructor
  · intro args
    rfl
  · intro args args'
    have groups : addTexts [addTexts args, addTexts args'] =
        .text (String.join (texts args) ++ String.join (texts args')) := by
      simp [addTexts, texts, Value.text?, String.join_cons]
    rw [groups, addTexts, texts_append, String.join_append]

theorem all_combines : Combines .bool fun args => .bool ((truths args).all id) := by
  constructor
  · intro args
    rfl
  · intro args args'
    rw [truths_append, List.all_append]
    simp [truths]

theorem any_combines : Combines .bool fun args => .bool ((truths args).any id) := by
  constructor
  · intro args
    rfl
  · intro args args'
    rw [truths_append, List.any_append]
    simp [truths]

/-! ### Results for groups -/

/-- What a function makes of its results for two groups of arguments. -/
def groups? (σ : Type) (name : String) (args args' : List Value) : Option Value := do
  let value ← result? σ name args
  let value' ← result? σ name args'
  result? σ name [value, value']

variable {name label label' : String} {type type' : TypeName}
  {combine combine' : List Value → Value}

/-- A function with one operation has a result where the operation takes the arguments. -/
theorem result?_single {set : String}
    (found : (registry (σ := σ)).lookup name = some ⟨set, [variadic label type combine]⟩)
    (args : List Value) :
    result? σ name args = if args.all type.holds then some (combine args) else none := by
  have chosen := choose?_single set (variadic (σ := σ) label type combine) args
  by_cases all : args.all type.holds = true
  · rw [if_pos all]
    exact result?_chosen found (chosen.trans (if_pos all)) rfl
  · rw [if_neg all]
    exact result?_refused found (chosen.trans (if_neg all))

theorem result?_pair {set : String} (found : (registry (σ := σ)).lookup name =
      some ⟨set, [variadic label type combine, variadic label' type' combine']⟩)
    (args : List Value) : result? σ name args =
      if args.all type.holds then some (combine args)
      else if args.all type'.holds then some (combine' args) else none := by
  have chosen := choose?_pair set (variadic (σ := σ) label type combine)
    (variadic label' type' combine') args
  by_cases all : args.all type.holds = true
  · rw [if_pos all]
    exact result?_chosen found (chosen.trans (if_pos all)) rfl
  · rw [if_neg all]
    by_cases all' : args.all type'.holds = true
    · rw [if_pos all']
      exact result?_chosen found (chosen.trans ((if_neg all).trans (if_pos all'))) rfl
    · rw [if_neg all']
      exact result?_refused found (chosen.trans ((if_neg all).trans (if_neg all')))

theorem groups?_single (combines : Combines type combine)
    (each : ∀ args, result? σ name args =
      if args.all type.holds then some (combine args) else none)
    (args args' : List Value) : groups? σ name args args' = result? σ name (args ++ args') := by
  simp only [groups?, each, List.all_append]
  cases args.all type.holds with
  | false => simp
  | true =>
    cases args'.all type.holds with
    | false => simp
    | true => simp [combines.closed, combines.grouped]

/-- Of two operations for different types at most one takes a group that is not empty, and it takes
the results of the groups only if it took both of them. -/
theorem groups?_pair (combines : Combines type combine) (combines' : Combines type' combine')
    (apart : ∀ value, type.holds value = true → type'.holds value = false)
    (each : ∀ args, result? σ name args =
      if args.all type.holds then some (combine args)
      else if args.all type'.holds then some (combine' args) else none)
    {args args' : List Value} (filled : args ≠ []) (filled' : args' ≠ []) :
    groups? σ name args args' = result? σ name (args ++ args') := by
  have first (args : List Value) : type.holds (combine args) = true := combines.closed args
  have second (args : List Value) : type'.holds (combine' args) = true := combines'.closed args
  have notSecond (args : List Value) : type'.holds (combine args) = false := apart _ (first args)
  have notFirst (args : List Value) : type.holds (combine' args) = false := by
    cases held : type.holds (combine' args) with
    | false => rfl
    | true => rw [← second args, apart _ held]
  -- A group that is not empty has one type at most.
  have exclusive {args : List Value} (filled : args ≠ []) (all : args.all type.holds = true) :
      args.all type'.holds = false := by
    obtain ⟨value, rest, rfl⟩ := List.exists_cons_of_ne_nil filled
    rw [List.all_cons, Bool.and_eq_true] at all
    rw [List.all_cons, apart value all.1, Bool.false_and]
  simp only [groups?, each, List.all_append]
  cases all : args.all type.holds with
  | true =>
    cases all' : args'.all type.holds with
    | true => simp [first, combines.grouped]
    | false =>
      -- The second group may have the other type, which the first one has not.
      cases other' : args'.all type'.holds <;> simp [exclusive filled all, notSecond, notFirst]
  | false =>
    cases other : args.all type'.holds with
    | false => simp
    | true =>
      cases all' : args'.all type.holds with
      | true => simp [exclusive filled' all', notSecond, notFirst]
      | false =>
        cases other' : args'.all type'.holds <;> simp [second, notFirst, combines'.grouped]

/-- Addition may be done in groups that are not empty, conjunction and disjunction in any. -/
theorem result?_grouped {args args' : List Value}
    (groupable : name = "add" ∧ args ≠ [] ∧ args' ≠ [] ∨ name = "and" ∨ name = "or") :
    groups? σ name args args' = result? σ name (args ++ args') := by
  rcases groupable with ⟨rfl, filled, filled'⟩ | rfl | rfl
  -- An empty group of addition is the integer zero, so it must not stand among texts.
  · have apart : ∀ value, TypeName.int.holds value = true → TypeName.text.holds value = false := by
      intro value held
      cases value <;> simp_all [TypeName.holds]
    exact groups?_pair addNumbers_combines addTexts_combines apart
      (result?_pair (lookup_listed rfl)) filled filled'
  · exact groups?_single all_combines (result?_single (lookup_listed rfl)) args args'
  · exact groups?_single any_combines (result?_single (lookup_listed rfl)) args args'

/-- No arguments add up to a number, which does not join with texts. -/
example : groups? Unit "add" [] [.text "a"] = none ∧
    result? Unit "add" [.text "a"] = some (.text "a") :=
  ⟨rfl, rfl⟩

end Standard

/-! ### Calls as forms -/

namespace Form

/-- A call of a function. -/
def call (name : String) (forms : List (Form Int)) : Form Int :=
  .list 0 (.symbol 0 name.toList :: forms)

theorem meaning_call (name : String) (forms : List (Form Int)) :
    (call name forms).meaning σ = (meanings σ forms).bind (Standard.result? σ name) := by
  rw [call, meaning, String.ofList_toList]

theorem meanings_append (forms forms' : List (Form Int)) : meanings σ (forms ++ forms') =
    (meanings σ forms).bind fun values => (meanings σ forms').map (values ++ ·) := by
  induction forms with
  | nil => simp [meanings]
  | cons first rest ih =>
    rw [List.cons_append, meanings_cons, meanings_cons, ih]
    cases meaning σ first with
    | none => rfl
    | some value =>
      cases meanings σ rest with
      | none => rfl
      | some values => cases meanings σ forms' <;> rfl

theorem meanings_eq_nil {forms : List (Form Int)} (mean : meanings σ forms = some []) :
    forms = [] := by
  cases forms with
  | nil => rfl
  | cons first rest =>
    rw [meanings_cons, Option.bind_eq_some_iff] at mean
    obtain ⟨value, -, later⟩ := mean
    obtain ⟨values, -, same⟩ := Option.bind_eq_some_iff.mp later
    cases same

/-- A call with two calls of its function as its arguments means what the call with all of their
arguments means. -/
theorem meaning_call_grouped {name : String} {forms forms' : List (Form Int)}
    (groupable : name = "add" ∧ forms ≠ [] ∧ forms' ≠ [] ∨ name = "and" ∨ name = "or") :
    (call name [call name forms, call name forms']).meaning σ =
      (call name (forms ++ forms')).meaning σ := by
  rw [meaning_call, meaning_call, meanings_append]
  cases mean : meanings σ forms with
  | none => simp [meanings, meaning_call, mean]
  | some args =>
    cases mean' : meanings σ forms' with
    | none =>
      -- The second call means nothing, whatever the first one does.
      cases result : Standard.result? σ name args with
      | none => simp [meanings, meaning_call, mean, result]
      | some value => simp [meanings, meaning_call, mean, mean', result]
    | some args' =>
      -- Each form gives one value, so a group is empty only if it was.
      have filled : forms ≠ [] → args ≠ [] := by
        rintro filled rfl
        exact filled (meanings_eq_nil mean)
      have filled' : forms' ≠ [] → args' ≠ [] := by
        rintro filled rfl
        exact filled (meanings_eq_nil mean')
      have grouped := Standard.result?_grouped (σ := σ) (groupable.imp_left fun addition =>
        ⟨addition.1, filled addition.2.1, filled' addition.2.2⟩)
      rw [Option.bind_some, Option.map_some, Option.bind_some, ← grouped, Standard.groups?]
      simp [meanings, meaning_call, mean, mean', Option.bind_assoc]

end Form

/-! ### Texts -/

/-- The text of a call of a function, with a space before each argument. -/
def callText (name : String) (texts : List String) : String :=
  "(" ++ name ++ String.join (texts.map (" " ++ ·)) ++ ")"

/-- A text is what the tree of a source without empty symbols prints as. -/
def IsPrinted (text : String) : Prop := ∃ (source : List Char) (root : Node),
  parse source = .ok root ∧ root.isSolid = true ∧ root.print source = .ok text

/-- A form that can be written and read again. -/
structure Form.Printable (form : Form Int) : Prop where
  readable : form.Readable
  solid : form.isSolid = true

theorem IsPrinted.form {text : String} (printed : IsPrinted text) :
    ∃ form : Form Int, form.Printable ∧ String.ofList form.chars = text := by
  obtain ⟨source, root, parsed, solid, printed⟩ := printed
  obtain ⟨form, formed, readable⟩ := parse_form source root parsed
  rw [Form.print_eq source root form formed] at printed
  exact ⟨form, ⟨readable, (Node.isSolid_form root form formed).trans solid⟩, Except.ok.inj printed⟩

theorem forms_of_printed {texts : List String} (printed : ∀ text ∈ texts, IsPrinted text) :
    ∃ forms : List (Form Int), (∀ form ∈ forms, form.Printable) ∧
      forms.map (fun form => String.ofList form.chars) = texts := by
  induction texts with
  | nil => exact ⟨[], nofun, rfl⟩
  | cons text texts ih =>
    obtain ⟨here, there⟩ := List.forall_mem_cons.mp printed
    obtain ⟨form, printable, rfl⟩ := here.form
    obtain ⟨forms, each, rfl⟩ := ih there
    exact ⟨form :: forms, List.forall_mem_cons.mpr ⟨printable, each⟩, rfl⟩

theorem Form.areSolid_of_forall {forms : List (Form Int)}
    (each : ∀ form ∈ forms, form.isSolid = true) : areSolid forms = true := by
  induction forms with
  | nil => rfl
  | cons form rest ih =>
    obtain ⟨here, there⟩ := List.forall_mem_cons.mp each
    rw [areSolid, here, ih there, Bool.and_self]

theorem Form.Printable.call {name : String} (filled : name.toList ≠ [])
    (whole : IsSymbolText name.toList) {forms : List (Form Int)}
    (each : ∀ form ∈ forms, form.Printable) : (Form.call name forms).Printable := by
  constructor
  · exact .list 0 _ (List.forall_mem_cons.mpr
      ⟨.symbol 0 _ whole, fun form member => (each form member).readable⟩)
  · have arguments := areSolid_of_forall fun form member => (each form member).solid
    simp [Form.call, isSolid, areSolid, arguments, filled]

theorem callText_eq (name : String) (forms : List (Form Int)) :
    callText name (forms.map fun form => String.ofList form.chars) =
      String.ofList (Form.call name forms).chars := by
  -- Each argument is written with a space before it.
  have joined : (String.join (forms.map fun form => " " ++ String.ofList form.chars)).toList =
      Form.spaced forms := by
    induction forms with
    | nil => rfl
    | cons form rest ih =>
      rw [List.map_cons, String.join_cons, String.toList_append, ih, Form.spaced]
      simp
  rw [← String.toList_inj, callText, List.map_map, Form.call, Form.chars]
  simp only [Function.comp_def, String.toList_append, joined, String.toList_ofList]
  simp [Form.chars]

/-- The text of a form has the value that the form means. -/
theorem Machine.evaluate_printable (machine : Machine σ)
    (loaded : machine.registry = Standard.registry) {form : Form Int} (printable : form.Printable) :
    (machine.evaluate (String.ofList form.chars)).1.toOption = form.meaning σ := by
  obtain ⟨readable, solid⟩ := printable
  obtain ⟨root, parsed, formed⟩ :=
    parse_chars form readable (Form.isEmpty_eq_false_of_isSolid solid)
  -- No symbol is left out, so the text reads as the form up to marks.
  have same : ((form.place 0).prune).erase = form.erase := by
    rw [Form.erase_prune, Form.erase_place, ← Form.erase_prune, Form.prune_of_isSolid form solid]
  rw [← String.toList_ofList (l := form.chars)] at parsed formed
  obtain ⟨outcome, after, ran, gives⟩ := machine.evaluate_means loaded parsed formed
  rw [ran, gives, Form.meaning_of_erase_eq same]

/-- With the standard operations alone, let the arguments of two calls of one function be printed
from trees without empty symbols. Then the call of the function with the two calls has a value
exactly if its call with all the arguments has, and it is the same value; for addition only if
neither call is without arguments, for conjunction and disjunction also if one is. -/
theorem evaluate_grouped (machine machine' : Machine σ)
    (loaded : machine.registry = Standard.registry)
    (loaded' : machine'.registry = Standard.registry) (name : String) (first second : List String)
    (printed : ∀ text ∈ first, IsPrinted text) (printed' : ∀ text ∈ second, IsPrinted text)
    (groupable : name = "add" ∧ first ≠ [] ∧ second ≠ [] ∨ name = "and" ∨ name = "or")
    (value : Value) :
    (machine.evaluate (callText name [callText name first, callText name second])).1 = .ok value ↔
      (machine'.evaluate (callText name (first ++ second))).1 = .ok value := by
  obtain ⟨forms, each, rfl⟩ := forms_of_printed printed
  obtain ⟨forms', each', rfl⟩ := forms_of_printed printed'
  -- Whatever its arguments, a call can be read because its name is a symbol.
  have known : ∃ overloads, (Standard.registry (σ := σ)).lookup name = some overloads := by
    rcases groupable with ⟨rfl, -⟩ | rfl | rfl
    · exact ⟨_, Standard.lookup_listed rfl⟩
    · exact ⟨_, Standard.lookup_listed rfl⟩
    · exact ⟨_, Standard.lookup_listed rfl⟩
  obtain ⟨overloads, found⟩ := known
  obtain ⟨filled, whole⟩ := Standard.isSymbolText_of_lookup found
  have calls : ∀ form ∈ [Form.call name forms, Form.call name forms'], form.Printable :=
    List.forall_mem_cons.mpr ⟨.call filled whole each,
      List.forall_mem_singleton.mpr (.call filled whole each')⟩
  have both : ∀ form ∈ forms ++ forms', form.Printable := by
    intro form member
    rcases List.mem_append.mp member with inFirst | inSecond
    · exact each form inFirst
    · exact each' form inSecond
  have grouped : (machine.evaluate (String.ofList
        (Form.call name [Form.call name forms, Form.call name forms']).chars)).1.toOption =
      (machine'.evaluate (String.ofList (Form.call name (forms ++ forms')).chars)).1.toOption := by
    rw [machine.evaluate_printable loaded (.call filled whole calls),
      machine'.evaluate_printable loaded' (.call filled whole both)]
    apply Form.meaning_call_grouped
    simpa using groupable
  have outer := callText_eq name [Form.call name forms, Form.call name forms']
  rw [List.map_cons, List.map_singleton, ← callText_eq, ← callText_eq] at outer
  rw [outer, ← List.map_append, callText_eq]
  constructor
  · intro given
    exact Except.eq_ok_of_toOption (by rw [← grouped, given]; rfl)
  · intro given
    exact Except.eq_ok_of_toOption (by rw [grouped, given]; rfl)

/-- The sum of no numbers stands in the first group, printed from a source with more spaces. -/
theorem evaluate_grouped_nested :
    let machine : Machine Unit := .fresh Standard.registry ()
    machine.registry = Standard.registry ∧ (∀ text ∈ ["1", "(add)"], IsPrinted text) ∧
      (∀ text ∈ ["2"], IsPrinted text) ∧ ["1", "(add)"] ≠ [] ∧ ["2"] ≠ [] ∧
      ∀ value, (machine.evaluate "(add (add 1 (add)) (add 2))").1 = .ok value ↔
        (machine.evaluate "(add 1 (add) 2)").1 = .ok value := by
  have one : IsPrinted "1" := ⟨"1".toList, .symbol ⟨0, 1⟩, rfl, rfl, rfl⟩
  have sum : IsPrinted "(add)" := ⟨"( add )".toList, .list (some 0) [.symbol ⟨2, 3⟩], rfl, rfl, rfl⟩
  have two : IsPrinted "2" := ⟨" 2".toList, .symbol ⟨1, 1⟩, rfl, rfl, rfl⟩
  have printed : ∀ text ∈ ["1", "(add)"], IsPrinted text := by
    simpa using ⟨one, sum⟩
  have printed' : ∀ text ∈ ["2"], IsPrinted text := by
    simpa using two
  refine ⟨rfl, printed, printed', by decide, by decide, fun value => ?_⟩
  exact evaluate_grouped (.fresh Standard.registry ()) (.fresh Standard.registry ()) rfl rfl "add"
    ["1", "(add)"] ["2"] printed printed' (.inl ⟨rfl, by decide, by decide⟩) value

end HostLisp
