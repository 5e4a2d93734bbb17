import Delegation.Pattern.Segment

namespace Delegation

variable [Matchers]

namespace Segment

def matching : Alignment Segment (List Char) := wildcardMatch isAnyDepth fits

/-- The patterns' remains share an identifier: a run of segments may be skipped on the side where it may
have any length. -/
def sharing : Alignment Segment Segment where
  finished qs := qs.all isAnyDepth
  leftover p below := p.isAnyDepth && below
  step p q dropFirst dropSecond dropBoth :=
    if p.isAnyDepth then dropFirst || dropSecond
    else if q.isAnyDepth then dropSecond || dropFirst
    else p.overlaps q && dropBoth

/-- Everything that the second pattern's remains describe, the first one's do. -/
def covering : Alignment Segment Segment where
  finished qs := qs.isEmpty
  leftover p below := p.isAnyDepth && below
  step p q dropFirst dropSecond dropBoth :=
    if p.isAnyDepth then dropFirst || dropSecond
    else !q.isAnyDepth && p.covers q && dropBoth

end Segment

namespace PatternKind

def describes (kind : PatternKind) (pattern identifier : String) : Bool :=
  Segment.matching.holds (kind.pattern pattern) (kind.segments identifier.toList)

def overlaps (kind : PatternKind) (p q : String) : Bool :=
  Segment.sharing.holds (kind.pattern p) (kind.pattern q)

/-- Whether the first pattern is seen to describe every identifier that the second does. -/
def covers (kind : PatternKind) (broad narrow : String) : Bool :=
  Segment.covering.holds (kind.pattern broad) (kind.pattern narrow)

end PatternKind

end Delegation
