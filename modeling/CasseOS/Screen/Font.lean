import Mathlib.Algebra.Group.Nat.Defs
import Mathlib.Data.Nat.Notation

/-! # The 8x16 console font (`drivers/screen/font8x16.c`)

One numeral a glyph: its sixteen row bytes in the order of the source, top row
first, so that byte `row` is the `row`-th pair of hex digits. -/

namespace CasseOS.Screen

def framebufferFont8x16 : Array ℕ := #[
  0x00003C4299A5A1A1A599423C00000000, 0x00000000000000FF0000000000000000,
  0x00000000000000000000DBDB00000000, 0x0000F15B555100000000000000000000,
  0x0000000010387CFE7C38100000000000, 0x0000CCCFEDFFFCDFCCCCCCCC00000000,
  0x0000033E66CFDBDBF3667CC000000000, 0x000000000000183C3C18000000000000,
  0x00000000663C6666663C660000000000, 0x00001818181800181818181800000000,
  0x00006C6C000000000000000000000000, 0x00003844BAB2AA443800000000000000,
  0x0000007C000000000000000000000000, 0x0070D83018D870000000000000000000,
  0x00000C18000000000000000000000000, 0x000000000000000000000000180C3800,
  0x00307030303078000000000000000000, 0x00E0306236EC183066CE9E3E06060000,
  0x60300010386CC6C6FEC6C6C600000000, 0x00006666666666666600666600000000,
  0x00007FDBDBDB7B1B1B1B1B1B00000000, 0x007CC660386CC6C66C380CC67C000000,
  0x0C180010386CC6C6FEC6C6C600000000, 0x10386C10386CC6C6FEC6C6C600000000,
  0x0000183C7E1818181818181800000000, 0x0000181818181818187E3C1800000000,
  0x00000000000C06FF060C000000000000, 0x00000000003060FF6030000000000000,
  0x76DC0010386CC6C6FEC6C6C600000000, 0x301800FE66626878686266FE00000000,
  0x103844FE66626878686266FE00000000, 0x6C6C00FE66626878686266FE00000000,
  0x00000000000000000000000000000000, 0x0000183C3C3C18181800181800000000,
  0x00666666240000000000000000000000, 0x0000006C6CFE6C6C6CFE6C6C00000000,
  0x18187CC6C2C07C060686C67C18180000, 0x00000000C2C60C183060C68600000000,
  0x0000386C6C3876DCCCCCCC7600000000, 0x00303030200000000000000000000000,
  0x00000C18303030303030180C00000000, 0x000030180C0C0C0C0C0C183000000000,
  0x0000000000663CFF3C66000000000000, 0x000000000018187E1818000000000000,
  0x00000000000000000018181830000000, 0x00000000000000FE0000000000000000,
  0x00000000000000000000181800000000, 0x0000000002060C183060C08000000000,
  0x0000386CC6C6D6D6C6C66C3800000000, 0x00001838781818181818187E00000000,
  0x00007CC6060C183060C0C6FE00000000, 0x00007CC606063C060606C67C00000000,
  0x00000C1C3C6CCCFE0C0C0C1E00000000, 0x0000FEC0C0C0FC060606C67C00000000,
  0x00003860C0C0FCC6C6C6C67C00000000, 0x0000FEC606060C183030303000000000,
  0x00007CC6C6C67CC6C6C6C67C00000000, 0x00007CC6C6C67E0606060C7800000000,
  0x00000000181800000018180000000000, 0x00000000181800000018183000000000,
  0x000000060C18306030180C0600000000, 0x00000000007E00007E00000000000000,
  0x0000006030180C060C18306000000000, 0x00007CC6C60C18181800181800000000,
  0x0000007CC6C6DEDEDEDCC07C00000000, 0x000010386CC6C6FEC6C6C6C600000000,
  0x0000FC6666667C66666666FC00000000, 0x00003C66C2C0C0C0C0C2663C00000000,
  0x0000F86C6666666666666CF800000000, 0x0000FE6662687868606266FE00000000,
  0x0000FE6662687868606060F000000000, 0x00003C66C2C0C0DEC6C6663A00000000,
  0x0000C6C6C6C6FEC6C6C6C6C600000000, 0x00003C18181818181818183C00000000,
  0x00001E0C0C0C0C0CCCCCCC7800000000, 0x0000E666666C78786C6666E600000000,
  0x0000F06060606060606266FE00000000, 0x0000C6EEFEFED6C6C6C6C6C600000000,
  0x0000C6E6F6FEDECEC6C6C6C600000000, 0x00007CC6C6C6C6C6C6C6C67C00000000,
  0x0000FC6666667C60606060F000000000, 0x00007CC6C6C6C6C6C6D6DE7C0C0E0000,
  0x0000FC6666667C6C666666E600000000, 0x00007CC6C660380C06C6C67C00000000,
  0x00007E7E5A1818181818183C00000000, 0x0000C6C6C6C6C6C6C6C6C67C00000000,
  0x0000C6C6C6C6C6C6C66C381000000000, 0x0000C6C6C6C6D6D6D6FEEE6C00000000,
  0x0000C6C66C7C38387C6CC6C600000000, 0x0000666666663C181818183C00000000,
  0x0000FEC6860C183060C2C6FE00000000, 0x00003C30303030303030303C00000000,
  0x00000080C0E070381C0E060200000000, 0x00003C0C0C0C0C0C0C0C0C3C00000000,
  0x10386CC6000000000000000000000000, 0x00000000000000000000000000FF0000,
  0x30301800000000000000000000000000, 0x0000000000780C7CCCCCCC7600000000,
  0x0000E06060786C666666667C00000000, 0x00000000007CC6C0C0C0C67C00000000,
  0x00001C0C0C3C6CCCCCCCCC7600000000, 0x00000000007CC6FEC0C0C67C00000000,
  0x0000386C6460F060606060F000000000, 0x000000000076CCCCCCCCCC7C0CCC7800,
  0x0000E060606C7666666666E600000000, 0x00001818003818181818183C00000000,
  0x00000606000E06060606060666663C00, 0x0000E06060666C78786C66E600000000,
  0x00003818181818181818183C00000000, 0x0000000000ECFED6D6D6D6C600000000,
  0x0000000000DC66666666666600000000, 0x00000000007CC6C6C6C6C67C00000000,
  0x0000000000DC66666666667C6060F000, 0x000000000076CCCCCCCCCC7C0C0C1E00,
  0x0000000000DC7666606060F000000000, 0x00000000007CC660380CC67C00000000,
  0x0000103030FC30303030361C00000000, 0x0000000000CCCCCCCCCCCC7600000000,
  0x000000000066666666663C1800000000, 0x0000000000C6C6D6D6D6FE6C00000000,
  0x0000000000C66C3838386CC600000000, 0x0000000000C6C6C6C6C6C67E060CF800,
  0x0000000000FECC183060C6FE00000000, 0x00000E18181870181818180E00000000,
  0x00001818181818181818181800000000, 0x0000701818180E181818187000000000,
  0x000076DC000000000000000000000000, 0x3018003C181818181818183C00000000,
  0x00003C66C2C0C0C0C0C2663C180C3800, 0x0000CCCC00CCCCCCCCCCCC7600000000,
  0x00000C18007CC6FEC0C0C67C00000000, 0x0010386C00780C7CCCCCCC7600000000,
  0x00006C6C00780C7CCCCCCC7600000000, 0x0000603000780C7CCCCCCC7600000000,
  0x00386C3800780C7CCCCCCC7600000000, 0x00000000007CC6C0C0C0C67C180C3800,
  0x0010386C007CC6FEC0C0C67C00000000, 0x00006C6C007CC6FEC0C0C67C00000000,
  0x00006030007CC6FEC0C0C67C00000000, 0x00006666003818181818183C00000000,
  0x0010386C003818181818183C00000000, 0x00003018003818181818183C00000000,
  0x6C6C0010386CC6C6FEC6C6C600000000, 0x386C3810386CC6C6FEC6C6C600000000,
  0x0C1800FE66626878686266FE00000000, 0x0000000000CC76367ED8D86E00000000,
  0x00003E6CCCCCFECCCCCCCCCE00000000, 0x0010386C007CC6C6C6C6C67C00000000,
  0x00006C6C007CC6C6C6C6C67C00000000, 0x00006030007CC6C6C6C6C67C00000000,
  0x0010386C00CCCCCCCCCCCC7600000000, 0x0000603000CCCCCCCCCCCC7600000000,
  0x00006C6C00C6C6C6C6C6C67E060CF800, 0x6C6C007CC6C6C6C6C6C6C67C00000000,
  0x6C6C00C6C6C6C6C6C6C6C67C00000000, 0x0018183C66606060663C181800000000,
  0x00386C6460F060606060E6FC00000000, 0x000066663C187E187E18181800000000,
  0x0000FC66667C62666F6666F300000000, 0x00001C3632307830303030303030E000,
  0x0000183000780C7CCCCCCC7600000000, 0x00000C18003818181818183C00000000,
  0x00000C18007CC6C6C6C6C67C00000000, 0x0000183000CCCCCCCCCCCC7600000000,
  0x000076DC00DC66666666666600000000, 0x76DC00C6E6F6FEDECEC6C6C600000000,
  0x003C6C6C3E007E000000000000000000, 0x00386C6C38007C000000000000000000,
  0x0000303000303060C0C6C67C00000000, 0x0C18003C181818181818183C00000000,
  0x000000000000FE060606060000000000, 0x00C0C0C2C6CC183060DC860C183E0000,
  0x00C0C0C2C6CC183066CE9E3E06060000, 0x00001818001818183C3C3C1800000000,
  0x0000000000366CD86C36000000000000, 0x0000000000D86C366CD8000000000000,
  0x11441144114411441144114411441144, 0x55AA55AA55AA55AA55AA55AA55AA55AA,
  0x183C423C181818181818183C00000000, 0x18181818181818181818181818181818,
  0x18181818181818F81818181818181818, 0x6666003C181818181818183C00000000,
  0x0000F86C6666F66666666CF800000000, 0x6030007CC6C6C6C6C6C6C67C00000000,
  0x0C18007CC6C6C6C6C6C6C67C00000000, 0x1038447CC6C6C6C6C6C6C67C00000000,
  0x76DC007CC6C6C6C6C6C6C67C00000000, 0x0000000000663C183C66000000000000,
  0x00007AC4CECED6D6E6E646BC00000000, 0x603000C6C6C6C6C6C6C6C67C00000000,
  0x0C1800C6C6C6C6C6C6C6C67C00000000, 0x00000000000000F81818181818181818,
  0x181818181818181F0000000000000000, 0x18181818181818FF0000000000000000,
  0x00000000000000FF1818181818181818, 0x181818181818181F1818181818181818,
  0x00000000000000FF0000000000000000, 0x18181818181818FF1818181818181818,
  0x103844C6C6C6C6C6C6C6C67C00000000, 0x0C18006666663C181818183C00000000,
  0x0000F0607C666666667C60F000000000, 0x000076DC00780C7CCCCCCC7600000000,
  0x0000761C3C067EC6C6C6C67C00000000, 0x000076DC007CC6C6C6C6C67C00000000,
  0x00000000007AC4CED6E646BC00000000, 0x00000C1800C6C6C6C6C6C67E060CF800,
  0x0000E060607C66666666667C6060F000, 0x6C38003C66C2C0DEC6C6663A00000000,
  0x00006C380076CCCCCCCCCC7C0CCC7800, 0x1818003C181818181818183C00000000,
  0x00000000003818181818183C00000000, 0x00006ED8D8D8DED8D8D8D86E00000000,
  0x00000000006CD6D6DED8D86E00000000, 0x0000007CC6C660380CC6C67C180C3800,
  0x00000000007CC660380CC67C180C3800, 0x6C38107CC6C660380CC6C67C00000000,
  0x006C3810007CC660380CC67C00000000, 0x18181818181818F80000000000000000,
  0x000000000000001F1818181818181818, 0xFFFFFFFFFFFFFFFFFFFFFFFFFFFFFFFF,
  0x6666006666663C181818183C00000000, 0x6C3810FEC68C183060C2C6FE00000000,
  0x006C381000FECC183060C6FE00000000, 0x0010386C000000000000000000000000,
  0x000076DC000000000000000000000000, 0x00003C6666666C66666666EC00000000,
  0x00183030300000000000000000000000, 0x0000000000FE6C6C6C6C6C6600000000,
  0x00181818300000000000000000000000, 0x00000000000000000000181818300000,
  0x0000000000CCCCCCCCCCCCF6C0C0C000, 0x0066CCCCCC0000000000000000000000,
  0x00666666CC0000000000000000000000, 0x00000000000000000000666666CC0000,
  0x00001818187E18181818181800000000, 0x00001818187E18187E18181800000000,
  0x000000000076DBDB6E00000000000000, 0x000000C0C60C183060C0363600000000,
  0x000000000C18306030180C0000000000, 0x000000007CC6C6C6C6C6C6C600000000,
  0x00000000FE0000FE0000FE0000000000, 0x0000000018187E1818007E0000000000,
  0x00000000E0380E38E000FE0000000000, 0x000000000E38E0380E00FE0000000000,
  0x000000006030180C1830600000000000, 0x00001C3660FC60F86060361C00000000,
  0x000000001818007E0018180000000000, 0x000000000076DC0076DC000000000000,
  0x00386C6C380000000000000000000000, 0x00000004087E08107E10200000000000,
  0x00000000000000001800000000000000, 0x00007E7E5A181E781E78183C00000000,
  0x0000B0D8D8D8D8000000000000000000, 0x0070D83060C8F8000000000000000000,
  0x000000FEFEFEFEFEFEFEFEFE00000000, 0x0000003E60C0C0FEC0C0603E00000000]

/-- `framebuffer_font_get_glyph` (`font8x16.c:266-271`). -/
def framebufferFontGetGlyph (codepoint : ℕ) : ℕ :=
  if codepoint < 256 then framebufferFont8x16.getD codepoint 0
  else framebufferFont8x16.getD 63 0

/- Row byte `row` of a glyph. -/
def glyphRow (glyph row : ℕ) : ℕ := glyph / 256 ^ (15 - row) % 256

/- The space glyph has no pixel set; a cleared cell looks like a space. -/
theorem glyphRow_space (row : ℕ) : glyphRow (framebufferFontGetGlyph 32) row = 0 := by
  have h : framebufferFontGetGlyph 32 = 0 := by decide +kernel
  rw [h, glyphRow, Nat.zero_div]

end CasseOS.Screen
