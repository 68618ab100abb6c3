/-!
# Lines

Lines of source texts, as units and dependencies record them.
-/

namespace JavaAtlas

/-- A line of a source text, counted from one; zero stands for an unknown line. -/
abbrev Line := UInt32

end JavaAtlas
