import LetCall.Proofs.Moments.Failing

/-!
# LetCall.Proofs.Evaluation.Arity

Calls of built-in functions with a wrong number of arguments.  How many arguments a function
takes is said by `Builtin.accepts`, and the function itself does nothing with any other number
but complain (`Builtin.call_of_not_accepts`).  A call has a context of its own for complaints
about the number of arguments, but only failures that a function raises on purpose pass it.

Main statement: a wrong number of arguments is reported as any other failure inside the function
(`wrong_count_blames_function`).
-/

namespace LetCall

namespace Builtin

/-- A function does something with just those numbers of arguments that it accepts. -/
theorem accepts_eq (b : Builtin) (args : List Value) :
    b.accepts args.length = ((b.pureCall? args).isSome || (b.worldCall? args).isSome) := by
  -- no function takes more than three arguments but those that take any number
  rcases args with _ | ⟨x, _ | ⟨y, _ | ⟨z, _ | ⟨u, rest⟩⟩⟩⟩ <;> cases b <;> rfl

/-- With any other number it leaves the world alone and complains. -/
theorem call_of_not_accepts {b : Builtin} {args : List Value} (h : b.accepts args.length = false)
    (w : World) : b.call args w = .error (.arity (b.arityError args.length)) w := by
  rw [accepts_eq, Bool.or_eq_false_iff, Option.isSome_eq_false_iff, Option.isSome_eq_false_iff,
    Option.isNone_iff_eq_none, Option.isNone_iff_eq_none] at h
  rw [call, h.1, h.2]
  rfl

end Builtin

/-- No module offers anything without a name. -/
theorem Module.named_exports (md : Module) : (md.exports.all fun e => e.1 != "") = true := by
  cases md <;> rfl

namespace Run

variable {p : Program} {name : String} {args : List Node} {vs : List Value} {m m' : Machine}

/-- A call evaluates its arguments when it knows what is called. -/
theorem evaluateCall_eq (p : Program) (name : String) (args : List Node) :
    evaluateCall p name args = callNamed p (callFunction p) name (arguments p name 1 args) := by
  funext m
  have hargs := argumentsWith_congr (p := p) (sameAt_callFunction p m.budget)
    (callFunction_moves p) name 1 args
  have hmoves := argumentsWith_moves (p := p) (callFunction_moves p) name 1 args
  exact callNamed_congr (sameAt_callFunction p m.budget) name hargs
    (hmoves.mono fun _ _ => OnlyWorld.sameSetting) m rfl

/-- Each argument has a value. -/
theorem length_of_arguments {i : Nat} (h : arguments p name i args m = .ok vs m') :
    vs.length = args.length := by
  induction args generalizing i m vs m' with
  | nil =>
    cases h
    rfl
  | cons n args ih =>
    rw [arguments_cons] at h
    obtain ⟨v, m₁, _, hrest⟩ := bind_eq_ok_iff.mp h
    obtain ⟨vs', m₂, hvs', hpure⟩ := bind_eq_ok_iff.mp hrest
    cases hpure
    rw [List.length_cons, List.length_cons, ih hvs']

/-- What a built-in function complains about passes a context of the call. -/
theorem callBuiltin_of_trouble {b : Builtin} {t : Trouble} {w : World} {args : Run (List Value)}
    (hargs : args m = .ok vs m') (hcall : b.call vs m'.world = .error t w) :
    callBuiltin name (.builtin b) args m =
      .error (.fault ⟨[callContext name ⟨[], .trouble t⟩], .trouble t⟩) { m' with world := w } := by
  refine callBuiltin_eq_error_iff.mpr ⟨.fault ⟨[], .trouble t⟩, ?_, rfl⟩
  rw [bind_of_ok hargs]
  show onWorld (b.call vs) m' = _
  rw [onWorld, hcall]

/-- The words for a failure inside a function do not begin like those for a wrong number of
arguments. -/
theorem builtinCall_ne_wrongArguments (name rest : String) :
    ¬ ("Wrong number of arguments for function '" ++ name ++ "'").toList <+:
      ("Error calling function '" ++ name ++ "': " ++ rest).toList := by
  rintro ⟨tail, h⟩
  have hhead := congrArg List.head? h
  simp [String.toList_append] at hhead

/-- **Wrong numbers of arguments.**  Take a function that a module offers, the name it is offered
under, and arguments that can be evaluated, but not so many as the function takes.  Then the call
fails, in the state that the arguments have left.  Its message says that there was an error in
calling the function, and then what was wrong with the number; it does not begin with the words
for a wrong number of arguments. -/
theorem wrong_count_blames_function {md : Module} {b : Builtin}
    (hoffer : (name, Value.fn (.builtin b)) ∈ md.exports)
    (henv : m.env.get? name = some (.fn (.builtin b)))
    (hargs : arguments p name 1 args m = .ok vs m') (hcount : b.accepts args.length = false) :
    ∃ f : Fault, evaluateCall p name args m = .error (.fault f) m' ∧
      f.message = "Error calling function '" ++ name ++ "': " ++
        Trouble.arityText (b.arityError args.length) ∧
      ¬ ("Wrong number of arguments for function '" ++ name ++ "'").toList <+:
        f.message.toList := by
  have hname : name ≠ "" := by simpa using List.all_eq_true.mp md.named_exports _ hoffer
  have hcallee : callee? p m.env name = some (.builtin (.builtin b)) := by
    rw [callee?, if_neg hname, henv]
  rw [← length_of_arguments hargs] at hcount ⊢
  have hcall := b.call_of_not_accepts hcount m'.world
  refine ⟨⟨[.builtinCall name], .trouble (.arity (b.arityError vs.length))⟩, ?_, rfl, ?_⟩
  · rw [evaluateCall_eq, callNamed_of_builtin _ _ hcallee, callBuiltin_of_trouble hargs hcall]
    rfl
  · exact builtinCall_ne_wrongArguments name _

/-- A machine that has the functions of one module. -/
def furnishedWith (md : Module) : Machine := { env := md.exports }

/-- A sum of nothing is an error in calling the function. -/
theorem add_without_arguments :
    ∃ f : Fault, evaluateCall {} "add" [] (furnishedWith .math) =
        .error (.fault f) (furnishedWith .math) ∧
      f.message = "Error calling function 'add': register.<locals>.<lambda>() missing 2 " ++
        "required positional arguments: 'a' and 'b'" ∧
      ¬ "Wrong number of arguments for function 'add'".toList <+: f.message.toList :=
  ⟨⟨[.builtinCall "add"], .trouble (.arity (Builtin.add.arityError 0))⟩, rfl, by decide,
    builtinCall_ne_wrongArguments "add" _⟩

/-- So is the root of two numbers, one of which has to be worked out. -/
theorem sqrt_of_two_numbers :
    let args := [.num (.int 4), .call "abs" [.num (.int (-1))]]
    let m := furnishedWith .math
    ("sqrt", Value.fn (.builtin .sqrt)) ∈ Module.math.exports ∧
    m.env.get? "sqrt" = some (.fn (.builtin .sqrt)) ∧
    arguments {} "sqrt" 1 args m = .ok [.int 4, .int 1] m ∧
    Builtin.sqrt.accepts args.length = false ∧
    ∃ f : Fault, evaluateCall {} "sqrt" args m = .error (.fault f) m ∧
      f.message = "Error calling function 'sqrt': math.sqrt() takes exactly one argument " ++
        "(2 given)" := by
  intro args m
  have hoffer : ("sqrt", Value.fn (.builtin .sqrt)) ∈ Module.math.exports := by
    simp [Module.exports]
  have henv : m.env.get? "sqrt" = some (.fn (.builtin .sqrt)) := rfl
  have hargs : arguments {} "sqrt" 1 args m = .ok [.int 4, .int 1] m := rfl
  obtain ⟨f, hf, hmessage, _⟩ := wrong_count_blames_function hoffer henv hargs rfl
  exact ⟨hoffer, henv, hargs, rfl, f, hf, hmessage.trans (by decide)⟩

end Run

end LetCall
