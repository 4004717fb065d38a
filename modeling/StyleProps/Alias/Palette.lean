import StyleProps.Table

/-!
# Colors

Symbolic colors that many aliases share: a few keywords, and ten shades for each family of colors.
-/

namespace StyleProps.Palette

/-- The names of the shades, from light to dark. -/
def shades : List String :=
  ["50", "100", "200", "300", "400", "500", "600", "700", "800", "900"]

/-- The families of colors, with their shades from light to dark. -/
def families : List (String × List String) :=
  [("gray", ["#f9fafb", "#f3f4f6", "#e5e7eb", "#d1d5db", "#9ca3af", "#6b7280", "#4b5563", "#374151",
     "#1f2937", "#111827"]),
   ("red", ["#fef2f2", "#fee2e2", "#fecaca", "#fca5a5", "#f87171", "#ef4444", "#dc2626", "#b91c1c",
     "#991b1b", "#7f1d1d"]),
   ("yellow", ["#fffbeb", "#fef3c7", "#fde68a", "#fcd34d", "#fbbf24", "#f59e0b", "#d97706",
     "#b45309", "#92400e", "#78350f"]),
   ("green", ["#ecfdf5", "#d1fae5", "#a7f3d0", "#6ee7b7", "#34d399", "#10b981", "#059669",
     "#047857", "#065f46", "#064e3b"]),
   ("blue", ["#eff6ff", "#dbeafe", "#bfdbfe", "#93c5fd", "#60a5fa", "#3b82f6", "#2563eb",
     "#1d4ed8", "#1e40af", "#1e3a8a"]),
   ("indigo", ["#eef2ff", "#e0e7ff", "#c7d2fe", "#a5b4fc", "#818cf8", "#6366f1", "#4f46e5",
     "#4338ca", "#3730a3", "#312e81"]),
   ("purple", ["#f5f3ff", "#ede9fe", "#ddd6fe", "#c4b5fd", "#a78bfa", "#8b5cf6", "#7c3aed",
     "#6d28d9", "#5b21b6", "#4c1d95"]),
   ("pink", ["#fdf2f8", "#fce7f3", "#fbcfe8", "#f9a8d4", "#f472b6", "#ec4899", "#db2777",
     "#be185d", "#9d174d", "#831843"])]

/-- The keywords among the colors. -/
def keywords : List (String × String) :=
  [("inherit", "inherit"),
   ("current", "currentColor"),
   ("transparent", "transparent"),
   ("black", "#000000"),
   ("white", "#ffffff")]

/-- The keywords, and every shade under the name of its family and shade. -/
def color : Table String :=
  Table.ofList <|
    keywords ++
      families.flatMap fun (family, hexes) =>
        (shades.zip hexes).map fun (shade, hex) => (family ++ shade, hex)

end StyleProps.Palette
