/-! Two parties that share an object and may each drop it at any time, telling
the other by a notice. The parties agree again as soon as no notice is on its
way, whatever crossed in between. -/
namespace DshProxy.Handshake

/-- One object as the two parties see it: whether each has it or is about to
get it, and whether a notice that it has dropped it is on its way. -/
structure View where
  left : Prop
  right : Prop
  leftEnds : Prop
  rightEnds : Prop

/-- Whoever still has the object shares it with the other party or is about to
be told; and who has sent a notice has dropped it. -/
structure View.Agree (v : View) : Prop where
  left : v.left → v.right ∨ v.rightEnds
  right : v.right → v.left ∨ v.leftEnds
  leftGone : v.leftEnds → ¬ v.left
  rightGone : v.rightEnds → ¬ v.right

/-- What may happen to the object. -/
inductive Turn (v w : View) : Prop
  /-- Nothing. -/
  | same (left : w.left ↔ v.left) (right : w.right ↔ v.right)
    (leftEnds : w.leftEnds ↔ v.leftEnds) (rightEnds : w.rightEnds ↔ v.rightEnds)
  /-- It comes into being on both sides, with no notice about it anywhere. -/
  | opens (left : w.left) (right : w.right) (leftEnds : ¬ w.leftEnds) (rightEnds : ¬ w.rightEnds)
  /-- A party drops it and sends a notice. -/
  | leftDrops (gone : ¬ w.left) (told : w.leftEnds) (right : w.right ↔ v.right)
    (rightEnds : w.rightEnds ↔ v.rightEnds)
  | rightDrops (gone : ¬ w.right) (told : w.rightEnds) (left : w.left ↔ v.left)
    (leftEnds : w.leftEnds ↔ v.leftEnds)
  /-- A party gets the other's notice and drops it too. -/
  | leftHears (told : v.rightEnds) (gone : ¬ w.left) (right : w.right ↔ v.right)
    (leftEnds : w.leftEnds ↔ v.leftEnds) (rightEnds : w.rightEnds → v.rightEnds)
  | rightHears (told : v.leftEnds) (gone : ¬ w.right) (left : w.left ↔ v.left)
    (rightEnds : w.rightEnds ↔ v.rightEnds) (leftEnds : w.leftEnds → v.leftEnds)

theorem Turn.agree (turn : Turn v w) (agree : v.Agree) : w.Agree := by
  obtain ⟨left, right, leftGone, rightGone⟩ := agree
  cases turn with
  | same hasLeft hasRight endsLeft endsRight =>
    refine ⟨?_, ?_, ?_, ?_⟩
    · rwa [hasLeft, hasRight, endsRight]
    · rwa [hasLeft, hasRight, endsLeft]
    · rwa [hasLeft, endsLeft]
    · rwa [hasRight, endsRight]
  | opens hasLeft hasRight endsLeft endsRight =>
    exact ⟨fun _ => .inl hasRight, fun _ => .inl hasLeft, fun told => absurd told endsLeft,
      fun told => absurd told endsRight⟩
  | leftDrops gone told hasRight endsRight =>
    refine ⟨fun has => absurd has gone, fun _ => .inr told, fun _ => gone, ?_⟩
    rwa [hasRight, endsRight]
  | rightDrops gone told hasLeft endsLeft =>
    refine ⟨fun _ => .inr told, fun has => absurd has gone, ?_, fun _ => gone⟩
    rwa [hasLeft, endsLeft]
  | leftHears told gone hasRight endsLeft endsRight =>
    refine ⟨fun has => absurd has gone, fun has => ?_, fun _ => gone, fun _ has => ?_⟩
    · exact absurd (hasRight.mp has) (rightGone told)
    · exact rightGone told (hasRight.mp has)
  | rightHears told gone hasLeft endsRight endsLeft =>
    refine ⟨fun has => ?_, fun has => absurd has gone, fun _ has => ?_, fun _ => gone⟩
    · exact absurd (hasLeft.mp has) (leftGone told)
    · exact leftGone told (hasLeft.mp has)

/-- With no notice on its way the parties agree. -/
theorem View.Agree.settled {v : View} (agree : v.Agree) (left : ¬ v.leftEnds)
    (right : ¬ v.rightEnds) : v.left ↔ v.right := by
  constructor
  · intro has
    exact (agree.left has).resolve_right right
  · intro has
    exact (agree.right has).resolve_right left

end DshProxy.Handshake
