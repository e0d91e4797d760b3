/-!
The shifts of the automaton.

A row says where the automaton goes with each symbol that it can take. An entry has five hexadecimal
digits: two for the symbol and three for the state after it. The entries of a row stand in numbers
of at most eighteen, the first entry in the lowest digits. A state number that has its bit 11 set is
one that a run of like parts would go to; it is only taken when a missing symbol is put in.
-/

namespace ImportGroups.Source.Automaton

def shiftRows : Array (List Nat) := #[
  [], [0x1d0c71c2fa1b53d1953c1704f162f9154ef140c613451100760f48b0e4500b48a0901306003050020301601012,
  0x420ca410ca400ca3f0ca3e0ca3d1373c1373b53f3805a360593405f330c9320c8310603053e2f3c42e3c32d3cf,
  0x5d0065c0065b0065a006590065800657006560065201450015], [0x1008],
  [0x5200b5000e0900a0800d0700c01009], [0x40110301102011], [0x5200b5000e],
  [0x52014500150a01b0801c0700c0101a], [0x5501f540205301f], [0x51022], [0x2c05717061102c307023],
  [0x420da410da400da3f0da3e0da3d1c83c1c81d1011c2fa1b53d1953c162f9154ef14100100760f4f20902501024,
  0x5d0285c0285b0285a028590285802857028560285202650027], [0x550295402a53029], [0x5102b],
  [0x1d8c71cafa1bd3d19d3c1784f16af915cef148c613c51108760fced0ec500bc8a098130682d0582c0381601812,
  0x428ca418ca408ca3f8ca3e8ca3d9373c9373bd3f3885a368593485f338c9328c83186030d3e2fbc42ebc32dbcf,
  0x5d8065c8065b8065a806598065880657806568065281450815], [0x5201450015], [0xa032040310303102031],
  [0x550345403553034], [0x50036], [0x1037], [0x17062102c307023], [0x550385403953038], [0x5103a],
  [0x550345403b53034], [0x5003c], [0x103d], [0x52014500150903e0801c0700c0101a],
  [0x52014500150a0400801c0700c0101a], [0xa040040420304202042], [0x5583453834], [0x550345404453034],
  [0x50045], [0x52014500150a0460801c0700c0101a], [0x52014500150a46a0801c0700c0101a],
  [0x4ba603ba602ba6], [0xa4b10438d0338d0238d],
  [0x2e3c32d3cf1d0c71c2fa1b53d1953c1704f162f9154ef140c613451100760f52e0e4500b48a09013030160112e,
  0x5201450015420ca410ca400ca3f0ca3e0ca3d1373c1373b53f3805a360593405f330c9320c8310603053e2f3c4,
  0x5d0065c0065b0065a00659006580065700656006],
  [0x2d3cf1d0c71c2fa1b53d1953c181381704f162f9154ef140c613451100760f52e0e4500b48a09013030160112e,
  0x50015420ca410ca400ca3f0ca3e0ca3d1373c1373b53f3805a360593405f330c9320c8310603053e2f3c42e3c3,
  0x5d0065c0065b0065a0065900658006570065600652014],
  [0x2e3c32d3cf1d0c71c2fa1b53d1953c1704f162f9154ef140c613451100760f52e0e4500b48a090130301601012,
  0x5201450015420ca410ca400ca3f0ca3e0ca3d1373c1373b53f3805a360593405f330c9320c8310603053e2f3c4,
  0x5d0065c0065b0065a00659006580065700656006],
  [0x2d3cf1d0c71c2fa1b53d1953c181ca1704f162f9154ef140c613451100760f52e0e4500b48a09013030160112e,
  0x50015420ca410ca400ca3f0ca3e0ca3d1373c1373b53f3805a360593405f330c9320c8310603053e2f3c42e3c3,
  0x5d0065c0065b0065a0065900658006570065600652014],
  [0x2d3cf1d0c71c2fa1b53d1953c184721704f162f9154ef140c613451100760f52e0e4500b48a09013030160112e,
  0x50015420ca410ca400ca3f0ca3e0ca3d1373c1373b53f3805a360593405f330c9320c8310603053e2f3c42e3c3,
  0x5d0065c0065b0065a0065900658006570065600652014],
  [0x2d3cf1d0c71c2fa1b53d1953c182361704f162f9154ef140c613451100760f52e0e4500b48a09013030160112e,
  0x50015420ca410ca400ca3f0ca3e0ca3d1373c1373b53f3805a360593405f330c9320c8310603053e2f3c42e3c3,
  0x5d0065c0065b0065a0065900658006570065600652014],
  [0x2d3cf1d0c71c2fa1b53d1953c181691704f162f9154ef140c613451100760f52e0e4500b48a09013030160112e,
  0x50015420ca410ca400ca3f0ca3e0ca3d1373c1373b53f3805a360593405f330c9320c8310603053e2f3c42e3c3,
  0x5d0065c0065b0065a0065900658006570065600652014],
  [0x2d3cf1d0c71c2fa1b53d1953c1819d1704f162f9154ef140c613451100760f52e0e4500b48a09013030160112e,
  0x50015420ca410ca400ca3f0ca3e0ca3d1373c1373b53f3805a360593405f330c9320c8310603053e2f3c42e3c3,
  0x5d0065c0065b0065a0065900658006570065600652014],
  [0x2d3cf1d0c71c2fa1b53d1953c182621704f162f9154ef140c613451100760f52e0e4500b48a09013030160112e,
  0x50015420ca410ca400ca3f0ca3e0ca3d1373c1373b53f3805a360593405f330c9320c8310603053e2f3c42e3c3,
  0x5d0065c0065b0065a0065900658006570065600652014],
  [0x3f0ee3e0ee3d1673c167370cb1d1111c2fa1b53d1953c1704f162f9154ef14110100760f530091210309601160,
  0x5d1685c1685b1685a168591685816857168561685247e5058f420ee410ee400ee],
  [0x410ee400ee3f0ee3e0ee3d1673c1671d1111c2fa1b53d1953c173da162f9154ef14110100760f5300912101160,
  0x5d1685c1685b1685a168591685816857168561685247e5058f420ee],
  [0x420ee410ee400ee3f0ee3e0ee3d1673c1671d1111c2fa1b53d1953c162f9154ef14110100760f5300912101160,
  0x5d1685c1685b1685a168591685816857168561685247e5058f],
  [0x420e8410e8400e83f0e83e0e83d2053c2051d10e1c2fa1b53d1953c162f9154ef1410d100760f52f0911d011ee,
  0x5d20b5c20b5b20b5a20b5920b5820b5720b5620b524795058e],
  [0x3f0e23e0e23d1c83c1c81d10b1c2fa1b53d1953c1814317062162f9154ef1410a100760f4f20c54e0902501024,
  0x5d0285c0285b0285a028590285802857028560285202650027420e2410e2400e2],
  [0x3f0e23e0e23d1c83c1c81d10b1c2fa1b53d1953c181d317062162f9154ef1410a100760f4f20c56a0902501024,
  0x5d0285c0285b0285a028590285802857028560285202650027420e2410e2400e2],
  [0x3f0e23e0e23d1c83c1c81d10b1c2fa1b53d1953c1821317062162f9154ef1410a100760f4f20c5720902501024,
  0x5d0285c0285b0285a028590285802857028560285202650027420e2410e2400e2],
  [0x3f0e23e0e23d1c83c1c81d10b1c2fa1b53d1953c1817217062162f9154ef1410a100760f4f20c5790902501024,
  0x5d0285c0285b0285a028590285802857028560285202650027420e2410e2400e2],
  [0x3f0e23e0e23d1c83c1c81d10b1c2fa1b53d1953c181a617062162f9154ef1410a100760f4f20c5800902501024,
  0x5d0285c0285b0285a028590285802857028560285202650027420e2410e2400e2],
  [0x3f0e23e0e23d1c83c1c81d10b1c2fa1b53d1953c1826b17062162f9154ef1410a100760f4f20c5870902501024,
  0x5d0285c0285b0285a028590285802857028560285202650027420e2410e2400e2],
  [0x400e23f0e23e0e23d1c83c1c81d10b1c2fa1b53d1953c1815017062162f9154ef1410a100760f4f20902501024,
  0x5d0285c0285b0285a028590285802857028560285202650027420e2410e2],
  [0x400e23f0e23e0e23d1c83c1c81d10b1c2fa1b53d1953c1815817062162f9154ef1410a100760f4f20902501024,
  0x5d0285c0285b0285a028590285802857028560285202650027420e2410e2],
  [0x400e23f0e23e0e23d1c83c1c81d10b1c2fa1b53d1953c181e017062162f9154ef1410a100760f4f20902501024,
  0x5d0285c0285b0285a028590285802857028560285202650027420e2410e2],
  [0x400e23f0e23e0e23d1c83c1c81d10b1c2fa1b53d1953c181e817062162f9154ef1410a100760f4f20902501024,
  0x5d0285c0285b0285a028590285802857028560285202650027420e2410e2],
  [0x400e23f0e23e0e23d1c83c1c81d10b1c2fa1b53d1953c1822017062162f9154ef1410a100760f4f20902501024,
  0x5d0285c0285b0285a028590285802857028560285202650027420e2410e2],
  [0x400e23f0e23e0e23d1c83c1c81d10b1c2fa1b53d1953c1822817062162f9154ef1410a100760f4f20902501024,
  0x5d0285c0285b0285a028590285802857028560285202650027420e2410e2],
  [0x400e23f0e23e0e23d1c83c1c81d10b1c2fa1b53d1953c1817f17062162f9154ef1410a100760f4f20902501024,
  0x5d0285c0285b0285a028590285802857028560285202650027420e2410e2],
  [0x400e23f0e23e0e23d1c83c1c81d10b1c2fa1b53d1953c1818717062162f9154ef1410a100760f4f20902501024,
  0x5d0285c0285b0285a028590285802857028560285202650027420e2410e2],
  [0x400e23f0e23e0e23d1c83c1c81d10b1c2fa1b53d1953c181b317062162f9154ef1410a100760f4f20902501024,
  0x5d0285c0285b0285a028590285802857028560285202650027420e2410e2],
  [0x400e23f0e23e0e23d1c83c1c81d10b1c2fa1b53d1953c181bb17062162f9154ef1410a100760f4f20902501024,
  0x5d0285c0285b0285a028590285802857028560285202650027420e2410e2],
  [0x400e23f0e23e0e23d1c83c1c81d10b1c2fa1b53d1953c1827817062162f9154ef1410a100760f4f20902501024,
  0x5d0285c0285b0285a028590285802857028560285202650027420e2410e2],
  [0x400e23f0e23e0e23d1c83c1c81d10b1c2fa1b53d1953c1828017062162f9154ef1410a100760f4f20902501024,
  0x5d0285c0285b0285a028590285802857028560285202650027420e2410e2],
  [0x410e2400e23f0e23e0e23d1c83c1c81d10b1c2fa1b53d1953c17062162f9154ef1410a100760f4f20902501024,
  0x5d0285c0285b0285a028590285802857028560285202650027420e2],
  [0x420fa410fa400fa3f0fa3e0fa3d2453c2451d1171c2fa1b53d1953c162f9154ef14119100760f5320912901206,
  0x5d2605c2605b2605a260592605826057260562605248850591],
  [0x400e23f0e23e0e23d1c83c1c81d10b1c2fa1b53d1953c162f9154ef1410a12540112fb100760f4f20902501024,
  0x5d0285c0285b0285a028590285802857028560285202650027420e2410e2],
  [0x410da400da3f0da3e0da3d1c83c1c81d1011c2fa1b53d1953c162f9154ef14112100760f4f20a1450902501244,
  0x5d0285c0285b0285a028590285802857028560285202650027420da],
  [0x410e2400e23f0e23e0e23d1c83c1c82c09e1d10b1c2fa1b53d1953c162f9154ef14118100760f4f20902501246,
  0x5d0285c0285b0285a028590285802857028560285202650027420e2],
  [0x410e2400e23f0e23e0e23d1c83c1c81d10b1c2fa1b53d1953c162f9154ef1410a11330100760f4f2090250112d,
  0x5d0285c0285b0285a028590285802857028560285202650027420e2],
  [0x410e2400e23f0e23e0e23d1c83c1c8370d51d10b1c2fa1b53d1953c162f9154ef1410a100760f4f20902501024,
  0x5d0285c0285b0285a028590285802857028560285202650027420e2],
  [0x41104401043f1043e1043d1c83c1c81d1131c2fa1b53d1953c173f8162f9154ef14114100760f4f20902501261,
  0x5d0285c0285b0285a02859028580285702856028520265002742104],
  [0x410e2400e23f0e23e0e23d1c83c1c81d10b1c2fa1b53d1953c162f9154ef141181132a100760f4f20902501246,
  0x5d0285c0285b0285a028590285802857028560285202650027420e2],
  [0x410da400da3f0da3e0da3d1c83c1c81d1011c2fa1b53d1953c162f9154ef14112100760f4f20a1540902501244,
  0x5d0285c0285b0285a028590285802857028560285202650027420da],
  [0x410da400da3f0da3e0da3d1c83c1c81d1011c2fa1b53d1953c162f9154ef14112100760f4f20a15a0902501244,
  0x5d0285c0285b0285a028590285802857028560285202650027420da],
  [0x410da400da3f0da3e0da3d1c83c1c81d1011c2fa1b53d1953c162f9154ef14112100760f4f20a1d50902501244,
  0x5d0285c0285b0285a028590285802857028560285202650027420da],
  [0x410e2400e23f0e23e0e23d1c83c1c81d10b1c2fa1b53d1953c162f9154ef1411811330100760f4f20902501246,
  0x5d0285c0285b0285a028590285802857028560285202650027420e2],
  [0x410da400da3f0da3e0da3d1c83c1c81d1011c2fa1b53d1953c162f9154ef14112100760f4f20a1e40902501244,
  0x5d0285c0285b0285a028590285802857028560285202650027420da],
  [0x410da400da3f0da3e0da3d1c83c1c81d1011c2fa1b53d1953c162f9154ef14112100760f4f20a1ea0902501244,
  0x5d0285c0285b0285a028590285802857028560285202650027420da],
  [0x410da400da3f0da3e0da3d1c83c1c81d1011c2fa1b53d1953c162f9154ef14112100760f4f20a2150902501244,
  0x5d0285c0285b0285a028590285802857028560285202650027420da],
  [0x410da400da3f0da3e0da3d1c83c1c81d1011c2fa1b53d1953c162f9154ef14112100760f4f20a2240902501244,
  0x5d0285c0285b0285a028590285802857028560285202650027420da],
  [0x410da400da3f0da3e0da3d1c83c1c81d1011c2fa1b53d1953c162f9154ef14112100760f4f20a22a0902501244,
  0x5d0285c0285b0285a028590285802857028560285202650027420da],
  [0x410da400da3f0da3e0da3d1c83c1c81d1011c2fa1b53d1953c162f9154ef14112100760f4f20a1740902501244,
  0x5d0285c0285b0285a028590285802857028560285202650027420da],
  [0x410da400da3f0da3e0da3d1c83c1c81d1011c2fa1b53d1953c162f9154ef14112100760f4f20a1830902501244,
  0x5d0285c0285b0285a028590285802857028560285202650027420da],
  [0x410da400da3f0da3e0da3d1c83c1c81d1011c2fa1b53d1953c162f9154ef14112100760f4f20a1890902501244,
  0x5d0285c0285b0285a028590285802857028560285202650027420da],
  [0x410da400da3f0da3e0da3d1c83c1c81d1011c2fa1b53d1953c162f9154ef14112100760f4f20a1a80902501244,
  0x5d0285c0285b0285a028590285802857028560285202650027420da],
  [0x410da400da3f0da3e0da3d1c83c1c81d1011c2fa1b53d1953c162f9154ef14112100760f4f20a1b70902501244,
  0x5d0285c0285b0285a028590285802857028560285202650027420da],
  [0x410da400da3f0da3e0da3d1c83c1c81d1011c2fa1b53d1953c162f9154ef14112100760f4f20a1bd0902501244,
  0x5d0285c0285b0285a028590285802857028560285202650027420da],
  [0x410da400da3f0da3e0da3d1c83c1c81d1011c2fa1b53d1953c162f9154ef14112100760f4f20a26d0902501244,
  0x5d0285c0285b0285a028590285802857028560285202650027420da],
  [0x410da400da3f0da3e0da3d1c83c1c81d1011c2fa1b53d1953c162f9154ef14112100760f4f20a27c0902501244,
  0x5d0285c0285b0285a028590285802857028560285202650027420da],
  [0x410da400da3f0da3e0da3d1c83c1c81d1011c2fa1b53d1953c162f9154ef14112100760f4f20a2820902501244,
  0x5d0285c0285b0285a028590285802857028560285202650027420da],
  [0x410e2400e23f0e23e0e23d1c83c1c82c0ae1d10b1c2fa1b53d1953c162f9154ef14118100760f4f20902501246,
  0x5d0285c0285b0285a028590285802857028560285202650027420e2],
  [0x410e2400e23f0e23e0e23d1c83c1c82c0b31d10b1c2fa1b53d1953c162f9154ef14118100760f4f20902501246,
  0x5d0285c0285b0285a028590285802857028560285202650027420e2],
  [0x410e2400e23f0e23e0e23d1c83c1c82c0b81d10b1c2fa1b53d1953c162f9154ef14118100760f4f20902501246,
  0x5d0285c0285b0285a028590285802857028560285202650027420e2],
  [0x410e2400e23f0e23e0e23d1c83c1c82c0bd1d10b1c2fa1b53d1953c162f9154ef14118100760f4f20902501246,
  0x5d0285c0285b0285a028590285802857028560285202650027420e2],
  [0x410e2400e23f0e23e0e23d1c83c1c82c0c21d10b1c2fa1b53d1953c162f9154ef14118100760f4f20902501246,
  0x5d0285c0285b0285a028590285802857028560285202650027420e2],
  [0x410e2400e23f0e23e0e23d1c83c1c81d10b1c2fa1b53d1953c162f9154ef1410a112fb100760f4f20902501024,
  0x5d0285c0285b0285a028590285802857028560285202650027420e2],
  [0x410e2400e23f0e23e0e23d1c83c1c81d10b1c2fa1b53d1953c162f9154ef1410a100760f4f2090250305b01024,
  0x5d0285c0285b0285a028590285802857028560285202650027420e2],
  [0x410e2400e23f0e23e0e23d1c83c1c81d10b1c2fa1b53d1953c162f9154ef1410a100760f4f2090250305d01024,
  0x5d0285c0285b0285a028590285802857028560285202650027420e2],
  [0x420e2410e2400e23f0e23e0e23d1c83c1c81d10b1c2fa1b53d1953c162f9154ef1410a100760f4f20902501024,
  0x5d0285c0285b0285a028590285802857028560285202650027],
  [0x410e2400e23f0e23e0e23d1c83c1c81d10b1c2fa1b53d1953c162f9154ef1410a1114d100760f4f20902501024,
  0x5d0285c0285b0285a028590285802857028560285202650027420e2],
  [0x410da400da3f0da3e0da3d1c83c1c81d1011c2fa1b53d1953c162f9154ef14112100760f4f20a14f0902501244,
  0x5d0285c0285b0285a028590285802857028560285202650027420da],
  [0x410e2400e23f0e23e0e23d1c83c1c81d10b1c2fa1b53d1953c162f9154ef1410a11156100760f4f20902501024,
  0x5d0285c0285b0285a028590285802857028560285202650027420e2],
  [0x410da400da3f0da3e0da3d1c83c1c81d1011c2fa1b53d1953c162f9154ef14112100760f4f20a1570902501244,
  0x5d0285c0285b0285a028590285802857028560285202650027420da],
  [0x420da410da400da3f0da3e0da3d1c83c1c81d1011c2fa1b53d1953c162f9154ef14112100760f4f20902501244,
  0x5d0285c0285b0285a028590285802857028560285202650027],
  [0x410e2400e23f0e23e0e23d1c83c1c81d10b1c2fa1b53d1953c162f9154ef1410a1132a100760f4f20902501024,
  0x5d0285c0285b0285a028590285802857028560285202650027420e2],
  [0x4210441104401043f1043e1043d1c83c1c81d1131c2fa1b53d1953c162f9154ef14114100760f4f20902501261,
  0x5d0285c0285b0285a028590285802857028560285202650027],
  [0x410e2400e23f0e23e0e23d1c83c1c81d10b1c2fa1b53d1953c162f9154ef1410a111dd100760f4f20902501024,
  0x5d0285c0285b0285a028590285802857028560285202650027420e2],
  [0x410da400da3f0da3e0da3d1c83c1c81d1011c2fa1b53d1953c162f9154ef14112100760f4f20a1df0902501244,
  0x5d0285c0285b0285a028590285802857028560285202650027420da],
  [0x410e2400e23f0e23e0e23d1c83c1c81d10b1c2fa1b53d1953c162f9154ef1410a111e6100760f4f20902501024,
  0x5d0285c0285b0285a028590285802857028560285202650027420e2],
  [0x410da400da3f0da3e0da3d1c83c1c81d1011c2fa1b53d1953c162f9154ef14112100760f4f20a1e70902501244,
  0x5d0285c0285b0285a028590285802857028560285202650027420da],
  [0x410e2400e23f0e23e0e23d1c83c1c81d10b1c2fa1b53d1953c162f9154ef1410a11330100760f4f20902501024,
  0x5d0285c0285b0285a028590285802857028560285202650027420e2],
  [0x410e2400e23f0e23e0e23d1c83c1c81d10b1c2fa1b53d1953c162f9154ef1410a1121d100760f4f20902501024,
  0x5d0285c0285b0285a028590285802857028560285202650027420e2],
  [0x410da400da3f0da3e0da3d1c83c1c81d1011c2fa1b53d1953c162f9154ef14112100760f4f20a21f0902501244,
  0x5d0285c0285b0285a028590285802857028560285202650027420da],
  [0x410e2400e23f0e23e0e23d1c83c1c81d10b1c2fa1b53d1953c162f9154ef1410a11226100760f4f20902501024,
  0x5d0285c0285b0285a028590285802857028560285202650027420e2],
  [0x410da400da3f0da3e0da3d1c83c1c81d1011c2fa1b53d1953c162f9154ef14112100760f4f20a2270902501244,
  0x5d0285c0285b0285a028590285802857028560285202650027420da],
  [0x410e2400e23f0e23e0e23d1c83c1c81d10b1c2fa1b53d1953c162f9154ef1410a11334100760f4f20902501024,
  0x5d0285c0285b0285a028590285802857028560285202650027420e2],
  [0x410e2400e23f0e23e0e23d1c83c1c81d10b1c2fa1b53d1953c162f9154ef1410a1117c100760f4f20902501024,
  0x5d0285c0285b0285a028590285802857028560285202650027420e2],
  [0x410da400da3f0da3e0da3d1c83c1c81d1011c2fa1b53d1953c162f9154ef14112100760f4f20a17e0902501244,
  0x5d0285c0285b0285a028590285802857028560285202650027420da],
  [0x410e2400e23f0e23e0e23d1c83c1c81d10b1c2fa1b53d1953c162f9154ef1410a11185100760f4f20902501024,
  0x5d0285c0285b0285a028590285802857028560285202650027420e2],
  [0x410da400da3f0da3e0da3d1c83c1c81d1011c2fa1b53d1953c162f9154ef14112100760f4f20a1860902501244,
  0x5d0285c0285b0285a028590285802857028560285202650027420da],
  [0x410e2400e23f0e23e0e23d1c83c1c81d10b1c2fa1b53d1953c162f9154ef1410a11337100760f4f20902501024,
  0x5d0285c0285b0285a028590285802857028560285202650027420e2],
  [0x410e2400e23f0e23e0e23d1c83c1c81d10b1c2fa1b53d1953c162f9154ef1410a111b0100760f4f20902501024,
  0x5d0285c0285b0285a028590285802857028560285202650027420e2],
  [0x410da400da3f0da3e0da3d1c83c1c81d1011c2fa1b53d1953c162f9154ef14112100760f4f20a1b20902501244,
  0x5d0285c0285b0285a028590285802857028560285202650027420da],
  [0x410e2400e23f0e23e0e23d1c83c1c81d10b1c2fa1b53d1953c162f9154ef1410a111b9100760f4f20902501024,
  0x5d0285c0285b0285a028590285802857028560285202650027420e2],
  [0x410da400da3f0da3e0da3d1c83c1c81d1011c2fa1b53d1953c162f9154ef14112100760f4f20a1ba0902501244,
  0x5d0285c0285b0285a028590285802857028560285202650027420da],
  [0x410e2400e23f0e23e0e23d1c83c1c81d10b1c2fa1b53d1953c162f9154ef1410a1133a100760f4f20902501024,
  0x5d0285c0285b0285a028590285802857028560285202650027420e2],
  [0x410e2400e23f0e23e0e23d1c83c1c81d10b1c2fa1b53d1953c162f9154ef1410a11275100760f4f20902501024,
  0x5d0285c0285b0285a028590285802857028560285202650027420e2],
  [0x410da400da3f0da3e0da3d1c83c1c81d1011c2fa1b53d1953c162f9154ef14112100760f4f20a2770902501244,
  0x5d0285c0285b0285a028590285802857028560285202650027420da],
  [0x410e2400e23f0e23e0e23d1c83c1c81d10b1c2fa1b53d1953c162f9154ef1410a1127e100760f4f20902501024,
  0x5d0285c0285b0285a028590285802857028560285202650027420e2],
  [0x410da400da3f0da3e0da3d1c83c1c81d1011c2fa1b53d1953c162f9154ef14112100760f4f20a27f0902501244,
  0x5d0285c0285b0285a028590285802857028560285202650027420da],
  [0x420ca410ca400ca3f0ca3e0ca3d1373c1371d0c71c2fa1b53d1953c162f9154ef140c6100760f52e0901301130,
  0x5d0065c0065b0065a006590065800657006560065201450015],
  [0x420ca410ca400ca3f0ca3e0ca3d1373c1371d0c71c3001b53d1953c162f9154ef140c6100760f52e0901301130,
  0x5d0065c0065b0065a006590065800657006560065201450015],
  [0x420f4410f4400f43f0f43e0f43d1983c1981d1151c2fa1b53d1953c162f9154ef14116100760f5310912501190,
  0x5d19c5c19c5b19c5a19c5919c5819c5719c5619c5248350590],
  [0x420da410da400da3f0da3e0da3d1c83c1c81d1011c3001b53d1953c162f9154ef14112100760f4f20902501244,
  0x5d0285c0285b0285a028590285802857028560285202650027],
  [0x420e2410e2400e23f0e23e0e23d1c83c1c81d10b1c3001b53d1953c162f9154ef1410a100760f4f20902501024,
  0x5d0285c0285b0285a028590285802857028560285202650027],
  [0x420e8410e8400e83f0e83e0e83d2053c2051d10e1c3001b53d1953c162f9154ef1410d100760f52f0911d011ee,
  0x5d20b5c20b5b20b5a20b5920b5820b5720b5620b524795058e],
  [0x420ee410ee400ee3f0ee3e0ee3d1673c1671d1111c3001b53d1953c162f9154ef14110100760f5300912101160,
  0x5d1685c1685b1685a168591685816857168561685247e5058f],
  [0x4210441104401043f1043e1043d1c83c1c81d1131c3001b53d1953c162f9154ef14114100760f4f20902501261,
  0x5d0285c0285b0285a028590285802857028560285202650027],
  [0x420f4410f4400f43f0f43e0f43d1983c1981d1151c3001b53d1953c162f9154ef14116100760f5310912501190,
  0x5d19c5c19c5b19c5a19c5919c5819c5719c5619c5248350590],
  [0x420fa410fa400fa3f0fa3e0fa3d2453c2451d1171c3001b53d1953c162f9154ef14119100760f5320912901206,
  0x5d2605c2605b2605a260592605826057260562605248850591],
  [0x420e2410e2400e23f0e23e0e23d1c83c1c81d10b1c2fa1b53d1953c162f9154ef14118100760f4f20902501246,
  0x5d0285c0285b0285a028590285802857028560285202650027],
  [0x1d5651c3291b5921953c17062162f9154ef1432c1007d0f5190c549092fc070230138c],
  [0x2c05017061102c307023],
  [0x470ce460ce450ce440ce430ce420ce410cf3f0cf3e0cf203dd1f3dc1d0d01a0cf140ce100780c0cd09077074f6,
  0x4f0d34e0d24d0d14c0d14b0d14a0d1490d1480d1], [0x17061102c307023], [0x1007809077074f6],
  [0x470ce460ce450ce440ce430ce420ce140ce1007809077074f6],
  [0x470ce460ce450ce440ce430ce420ce410cf3f0cf3e0cf1a0cf140ce1007809077074f6],
  [0x4b0d14a0d1490d1480d1470ce460ce450ce440ce430ce420ce410cf3f0cf3e0cf1a0cf140ce1007809077074f6,
  0x4d0d14c0d1],
  [0x4b0d14a0d1490d1480d1470ce460ce450ce440ce430ce420ce410cf3f0cf3e0cf1a0cf140ce1007809077074f6,
  0x4e0d24d0d14c0d1], [0x92c2],
  [0x460ef450ef440ef430ef420ef410f03f0f03e0f0205141f5131d0de1a0f01704f140ef100920c0cd0908707524,
  0x4f0f34e0f24d0f14c0f14b0f14a0f1490f1480f1470ef],
  [0x460ef450ef440ef430ef420ef410f03f0f03e0f0205141f5131d0de1a0f0173e7140ef100920c0cd09087074fc,
  0x4f0f34e0f24d0f14c0f14b0f14a0f1490f1480f1470ef],
  [0x470ef460ef450ef440ef430ef420ef410f03f0f03e0f0205141f5131d1031a0f0140ef100920c0cd0908707524,
  0x4f0f34e0f24d0f14c0f14b0f14a0f1490f1480f1], [0x102c307023], [0x100920908707524],
  [0x470ef460ef450ef440ef430ef420ef140ef100920908707524],
  [0x470ef460ef450ef440ef430ef420ef410f03f0f03e0f01a0f0140ef100920908707524],
  [0x4b0f14a0f1490f1480f1470ef460ef450ef440ef430ef420ef410f03f0f03e0f01a0f0140ef100920908707524,
  0x4d0f14c0f1],
  [0x4b0f14a0f1490f1480f1470ef460ef450ef440ef430ef420ef410f03f0f03e0f01a0f0140ef100920908707524,
  0x4e0f24d0f14c0f1], [0x92e4], [0x17065102c307023],
  [0x4b0f74a0f7490f7480f7470f5460f5450f5440f5430f5420f5410f63f0f63e0f61a0f6140f5100930908a07528,
  0x4f0f94e0f84d0f74c0f7], [0x100930908a07528],
  [0x470f5460f5450f5440f5430f5420f5140f5100930908a07528],
  [0x470f5460f5450f5440f5430f5420f5410f63f0f63e0f61a0f6140f5100930908a07528],
  [0x4b0f74a0f7490f7480f7470f5460f5450f5440f5430f5420f5410f63f0f63e0f61a0f6140f5100930908a07528,
  0x4d0f74c0f7],
  [0x4b0f74a0f7490f7480f7470f5460f5450f5440f5430f5420f5410f63f0f63e0f61a0f6140f5100930908a07528,
  0x4e0f84d0f74c0f7], [0x92eb],
  [0x52014500151d56d1c32f1b5931958c163281551714332100810f51f0c5510932b0756701359],
  [0x1d56d1c32f1b5931958c163281551714332100b20f51f0923d01359],
  [0x1d5751c3331b5941958c163281551714335100b70f5230923d0135a], [0x10090090800751a],
  [0x1d5651c3291b5921953c162f9154ef1432c100ab0f5190d0990c547092fc0138c],
  [0x1d5651c3291b5921953c162f9154ef1432c100ab0f5190d0a00c547092fc0138c], [0x92d6],
  [0x4a0eb490eb480eb470e9460e9450e9440e9430e9420e9410ea3f0ea3e0ea1a0ea140e9100910c1020908407520,
  0x4f0ed4e0ec4d0eb4c0eb4b0eb], [0x17063102c307023],
  [0x1d5411c2fa1b53d1953c162f9154ef142fd100950f4f40920701386],
  [0x1d5651c3291b5921953c162f9154ef1432c100ab0f519092070138c],
  [0x4b0eb4a0eb490eb480eb470e9460e9450e9440e9430e9420e9410ea3f0ea3e0ea1a0ea140e9100910908407520,
  0x4f0ed4e0ec4d0eb4c0eb], [0x100910908407520],
  [0x470e3460e3450e3440e3430e3420e3140e310090090800751a],
  [0x470e3460e3450e3440e3430e3420e3410e43f0e43e0e41a0e4140e310090090800751a],
  [0x4b0e54a0e5490e5480e5470e3460e3450e3440e3430e3420e3410e43f0e43e0e41a0e4140e310090090800751a,
  0x4d0e54c0e5],
  [0x4b0e54a0e5490e5480e5470e3460e3450e3440e3430e3420e3410e43f0e43e0e41a0e4140e310090090800751a,
  0x4e0e64d0e54c0e5], [0x470e9460e9450e9440e9430e9420e9140e9100910908407520],
  [0x470e9460e9450e9440e9430e9420e9410ea3f0ea3e0ea1a0ea140e9100910908407520],
  [0x4b0eb4a0eb490eb480eb470e9460e9450e9440e9430e9420e9410ea3f0ea3e0ea1a0ea140e9100910908407520,
  0x4d0eb4c0eb],
  [0x4b0eb4a0eb490eb480eb470e9460e9450e9440e9430e9420e9410ea3f0ea3e0ea1a0ea140e9100910908407520,
  0x4e0ec4d0eb4c0eb], [0x1d5411c2fa1b53d1953c17051162f9154ef142fd100950f4f40920701386],
  [0x1d5651c3291b5921953c162f9154ef1432c123081007d0f5190c549092fc070230138c],
  [0x1d57c1c3361b5951958d170521632e1551d14338100bc0f5270923c013b9],
  [0x490fd480fd470fb460fb450fb440fb430fb420fb410fc3f0fc3e0fc1d0de1a0fc140fb100940c0db0908d0752c,
  0x4f0ff4e0fe4d0fd4c0fd4b0fd4a0fd], [0x92dd], [0x17066102c307023],
  [0x1d5651c3291b5921953c162f9154ef1432c12302100ab0f5190c54a0a351092fc011ff],
  [0x1d56d1c32f1b5931958c1704f163281551714332100b20f51f0923d01359],
  [0x4b0e54a0e5490e5480e5470e3460e3450e3440e3430e3420e3410e43f0e43e0e41a0e4140e310090090800751a,
  0x4f0e74e0e64d0e54c0e5], [0x1d57c1c3361b5951958d1632e1551d14338100bc0f5270923c013b9],
  [0x100940908d0752c], [0x1d5831c3391b5961958d1632e1551d1433b100c10f52b0923c013ba],
  [0x470fb460fb450fb440fb430fb420fb140fb100940908d0752c],
  [0x470fb460fb450fb440fb430fb420fb410fc3f0fc3e0fc1a0fc140fb100940908d0752c],
  [0x4b0fd4a0fd490fd480fd470fb460fb450fb440fb430fb420fb410fc3f0fc3e0fc1a0fc140fb100940908d0752c,
  0x4d0fd4c0fd],
  [0x4b0fd4a0fd490fd480fd470fb460fb450fb440fb430fb420fb410fc3f0fc3e0fc1a0fc140fb100940908d0752c,
  0x4e0fe4d0fd4c0fd], [0x1d5651c3291b5921953c162f9154ef1432c12302100ab0f5190c5680a355092fc011ff],
  [0x1d5651c3291b5921953c162f9154ef1432c12302100ab0f5190c5700a34b092fc011ff],
  [0x480df470dc460dc450dc440dc430dc420dc410dd3f0dd3e0dd1a0dd140dc12503100900c07e0a14c090800751a,
  0x4f0e14e0e04d0df4c0df4b0df4a0df490df],
  [0x1d5651c3291b5921953c162f9154ef1432c12302100ab0f5190a353092fc011ff],
  [0x4910748107471054610545105441054310542105411063f1063e1061a1061740914105100900c0db0908007509,
  0x4f1094e1084d1074c1074b1074a107],
  [0x1d5651c3291b5921953c162f9154ef1432c12302100ab0f5190a354092fc011ff],
  [0x4a0e5490e5480e5470e3460e3450e3440e3430e3420e3410e43f0e43e0e41a0e4140e3100900c0db090800751a,
  0x4f0e74e0e64d0e54c0e54b0e5], [0x92f2],
  [0x480df470dc460dc450dc440dc430dc420dc410dd3f0dd3e0dd1a0dd140dc12503100900c0820a1dc090800751a,
  0x4f0e14e0e04d0df4c0df4b0df4a0df490df],
  [0x1d5651c3291b5921953c162f9154ef1432c12302100ab0f5190a357092fc011ff],
  [0x1d5651c3291b5921953c162f9154ef1432c12302100ab0f5190a358092fc011ff],
  [0x480df470dc460dc450dc440dc430dc420dc410dd3f0dd3e0dd1a0dd140dc12503100900c0850a21c090800751a,
  0x4f0e14e0e04d0df4c0df4b0df4a0df490df],
  [0x1d5651c3291b5921953c162f9154ef1432c12302100ab0f5190a34d092fc011ff],
  [0x1d5651c3291b5921953c162f9154ef1432c12302100ab0f5190a34e092fc011ff],
  [0x480df470dc460dc450dc440dc430dc420dc410dd3f0dd3e0dd1a0dd140dc12503100900c0880a17b090800751a,
  0x4f0e14e0e04d0df4c0df4b0df4a0df490df],
  [0x480df470dc460dc450dc440dc430dc420dc410dd3f0dd3e0dd1a0dd140dc12503100900c08b0a1af090800751a,
  0x4f0e14e0e04d0df4c0df4b0df4a0df490df],
  [0x480df470dc460dc450dc440dc430dc420dc410dd3f0dd3e0dd1a0dd140dc12503100900c08e0a274090800751a,
  0x4f0e14e0e04d0df4c0df4b0df4a0df490df],
  [0x1d56d1c32f1b5931958c163281551714332100b20f51f0d09a0c5490932b01359],
  [0x1d56d1c32f1b5931958c18399163281551714332100b20f51f0932b0138a],
  [0x1d56d1c32f1b5931958c163281551714332100b20f51f0d0a20c5490932b01359],
  [0x1d5651c3291b5921953c162f9154ef1432c100ab0f5190c549092fc0138c],
  [0x1d56d1c32f1b5931958c183a3163281551714332100b20f51f0932b0138a],
  [0x4a0e5490e5480e5470e3460e3450e3440e3430e3420e3410e43f0e43e0e41a0e4140e3100900c0db0908007508,
  0x4f0e74e0e64d0e54c0e54b0e5], [0x1d56d1c32f1b5931958c183a8163281551714332100b20f51f0932b0138a],
  [0x4a0df490df480df470dc460dc450dc440dc430dc420dc410dd3f0dd3e0dd1a0dd140dc1250310090090800751a,
  0x4f0e14e0e04d0df4c0df4b0df], [0x1d5651c3291b5921953c162f9154ef1432c12302100ab0f519092fc011ff],
  [0x470dc460dc450dc440dc430dc420dc140dc10090090800751a],
  [0x470dc460dc450dc440dc430dc420dc410dd3f0dd3e0dd1a0dd140dc10090090800751a],
  [0x4b0df4a0df490df480df470dc460dc450dc440dc430dc420dc410dd3f0dd3e0dd1a0dd140dc10090090800751a,
  0x4d0df4c0df],
  [0x4b0df4a0df490df480df470dc460dc450dc440dc430dc420dc410dd3f0dd3e0dd1a0dd140dc10090090800751a,
  0x4e0e04d0df4c0df],
  [0x4a1074910748107471054610545105441054310542105411063f1063e1061a10614105100900c10f090800751a,
  0x4f1094e1084d1074c1074b107], [0x1d56d1c32f1b5931958c1836a163281551714332100b20f51f0932b0138a],
  [0x1d56d1c32f1b5931958c18375163281551714332100b20f51f0932b0138a],
  [0x1d56d1c32f1b5931958c18379163281551714332100b20f51f0932b0138a],
  [0x4710546105451054410543105421051410510090090800751a],
  [0x471054610545105441054310542105411063f1063e1061a1061410510090090800751a],
  [0x4b1074a1074910748107471054610545105441054310542105411063f1063e1061a1061410510090090800751a,
  0x4d1074c107],
  [0x4b1074a1074910748107471054610545105441054310542105411063f1063e1061a1061410510090090800751a,
  0x4e1084d1074c107], [0x1d56d1c32f1b5931958c1841f163281551714332100b20f51f0932b0138a],
  [0x1d56d1c32f1b5931958c1842b163281551714332100b20f51f0932b0138a],
  [0x1d56d1c32f1b5931958c1842f163281551714332100b20f51f0932b0138a],
  [0x1d5411c2fa1b53d1953c1704f162f9154ef142fd100950f4f409207013e0],
  [0x1d56d1c32f1b5931958c163281551714332100790f51f0d3050932b01359],
  [0x490df480df470dc460dc450dc440dc430dc420dc410dd3f0dd3e0dd1a0dd140dc100900c5560a14a090800751a,
  0x4f0e14e0e04d0df4c0df4b0df4a0df],
  [0x490e5480e5470e3460e3450e3440e3430e3420e3410e43f0e43e0e42c0a41a0e4140e31114e10090090800751a,
  0x4f0e74e0e64d0e54c0e54b0e54a0e5],
  [0x1d56d1c32f1b5931958c163281551714332100b20f51f0c5510932b01359],
  [0x4a1074910748107471054610545105441054310542105411063f1063e1061a1061704f1410510090090800751a,
  0x4f1094e1084d1074c1074b107], [0x1d5651c3291b5921953c162f9154ef1432c113a5100ab0f519092fc0138c],
  [0x490e5480e5470e3460e3450e3440e3430e3420e3410e43f0e43e0e42c0d81a0e4140e31115510090090800751a,
  0x4f0e74e0e64d0e54c0e54b0e54a0e5],
  [0x1d5651c3291b5921953c162f9154ef1432c113a9100ab0f519092fc0138c],
  [0x490e5480e5470e3460e3450e3440e3430e3420e3410e43f0e43e0e42c0d91a0e4140e31115b10090090800751a,
  0x4f0e74e0e64d0e54c0e54b0e54a0e5], [0x1d56d1c32f1b5931958c163281551714332100b20f51f0932b0138a],
  [0x4b0df4a0df490df480df470dc460dc450dc440dc430dc420dc410dd3f0dd3e0dd1a0dd140dc10090090800751a,
  0x4f0e14e0e04d0df4c0df], [0x1d5411c2fa1b53d1953c1704f162f9154ef142fd100950f4f40920701386],
  [0x490df480df470dc460dc450dc440dc430dc420dc410dd3f0dd3e0dd1a0dd140dc100900c56b0a1da090800751a,
  0x4f0e14e0e04d0df4c0df4b0df4a0df],
  [0x490e5480e5470e3460e3450e3440e3430e3420e3410e43f0e43e0e42c0b01a0e4140e3111de10090090800751a,
  0x4f0e74e0e64d0e54c0e54b0e54a0e5],
  [0x1d5651c3291b5921953c162f9154ef1432c11377100ab0f519092fc0138c],
  [0x490e5480e5470e3460e3450e3440e3430e3420e3410e43f0e43e0e42c11b1a0e4140e3111e510090090800751a,
  0x4f0e74e0e64d0e54c0e54b0e54a0e5],
  [0x1d5651c3291b5921953c162f9154ef1432c1137a100ab0f519092fc0138c],
  [0x490e5480e5470e3460e3450e3440e3430e3420e3410e43f0e43e0e42c11c1a0e4140e3111eb10090090800751a,
  0x4f0e74e0e64d0e54c0e54b0e54a0e5],
  [0x4b1074a1074910748107471054610545105441054310542105411063f1063e1061a1061410510090090800751a,
  0x4f1094e1084d1074c107], [0x1d5411c2fa1b53d1953c17053162f9154ef142fd100950f4f40920701386],
  [0x490df480df470dc460dc450dc440dc430dc420dc410dd3f0dd3e0dd1a0dd140dc100900c5730a21a090800751a,
  0x4f0e14e0e04d0df4c0df4b0df4a0df],
  [0x490e5480e5470e3460e3450e3440e3430e3420e3410e43f0e43e0e42c0b51a0e4140e31121e10090090800751a,
  0x4f0e74e0e64d0e54c0e54b0e54a0e5],
  [0x1d5651c3291b5921953c162f9154ef1432c1142d100ab0f519092fc0138c],
  [0x490e5480e5470e3460e3450e3440e3430e3420e3410e43f0e43e0e42c11f1a0e4140e31122510090090800751a,
  0x4f0e74e0e64d0e54c0e54b0e54a0e5],
  [0x1d5651c3291b5921953c162f9154ef1432c11430100ab0f519092fc0138c],
  [0x490e5480e5470e3460e3450e3440e3430e3420e3410e43f0e43e0e42c1201a0e4140e31122b10090090800751a,
  0x4f0e74e0e64d0e54c0e54b0e54a0e5],
  [0x1d5411c2fa1b53d1953c17054162f9154ef142fd100950f4f40920701386],
  [0x490df480df470dc460dc450dc440dc430dc420dc410dd3f0dd3e0dd1a0dd140dc100900c57a0a179090800751a,
  0x4f0e14e0e04d0df4c0df4b0df4a0df],
  [0x490e5480e5470e3460e3450e3440e3430e3420e3410e43f0e43e0e42c0ba1a0e4140e31117d10090090800751a,
  0x4f0e74e0e64d0e54c0e54b0e54a0e5],
  [0x490e5480e5470e3460e3450e3440e3430e3420e3410e43f0e43e0e42c1231a0e4140e31118410090090800751a,
  0x4f0e74e0e64d0e54c0e54b0e54a0e5],
  [0x490e5480e5470e3460e3450e3440e3430e3420e3410e43f0e43e0e42c1241a0e4140e31118a10090090800751a,
  0x4f0e74e0e64d0e54c0e54b0e54a0e5],
  [0x1d5411c2fa1b53d1953c17055162f9154ef142fd100950f4f40920701386],
  [0x490df480df470dc460dc450dc440dc430dc420dc410dd3f0dd3e0dd1a0dd140dc100900c5810a1ad090800751a,
  0x4f0e14e0e04d0df4c0df4b0df4a0df],
  [0x490e5480e5470e3460e3450e3440e3430e3420e3410e43f0e43e0e42c0bf1a0e4140e3111b110090090800751a,
  0x4f0e74e0e64d0e54c0e54b0e54a0e5],
  [0x490e5480e5470e3460e3450e3440e3430e3420e3410e43f0e43e0e42c1271a0e4140e3111b810090090800751a,
  0x4f0e74e0e64d0e54c0e54b0e54a0e5],
  [0x490e5480e5470e3460e3450e3440e3430e3420e3410e43f0e43e0e42c1281a0e4140e3111be10090090800751a,
  0x4f0e74e0e64d0e54c0e54b0e54a0e5],
  [0x1d5411c2fa1b53d1953c17056162f9154ef142fd100950f4f40920701386],
  [0x490df480df470dc460dc450dc440dc430dc420dc410dd3f0dd3e0dd1a0dd140dc100900c5880a272090800751a,
  0x4f0e14e0e04d0df4c0df4b0df4a0df],
  [0x490e5480e5470e3460e3450e3440e3430e3420e3410e43f0e43e0e42c0c41a0e4140e31127610090090800751a,
  0x4f0e74e0e64d0e54c0e54b0e54a0e5],
  [0x490e5480e5470e3460e3450e3440e3430e3420e3410e43f0e43e0e42c12b1a0e4140e31127d10090090800751a,
  0x4f0e74e0e64d0e54c0e54b0e54a0e5],
  [0x490e5480e5470e3460e3450e3440e3430e3420e3410e43f0e43e0e42c12c1a0e4140e31128310090090800751a,
  0x4f0e74e0e64d0e54c0e54b0e54a0e5],
  [0x1d5411c2fa1b53d1953c1704f162f9154ef142fd100950f4f40920701431],
  [0x4a0df490df480df470dc460dc450dc440dc430dc420dc410dd3f0dd3e0dd1a0dd140dc100900a140090800751a,
  0x4f0e14e0e04d0df4c0df4b0df],
  [0x4a0e5490e5480e5470e3460e3450e3440e3430e3420e3410e43f0e43e0e41a0e4140e31130410090090800751a,
  0x4f0e74e0e64d0e54c0e54b0e5], [0x1d5651c3291b5921953c162f9154ef1432c100ab0f5190a142092fc0138c],
  [0x1d5651c3291b5921953c162f9154ef1432c100ab0f519092fc0138c],
  [0x1d56d1c32f1b5931958c163281551714332100b20f51f0d3090932b01359],
  [0x4a0e5490e5480e5470e3460e3450e3440e3430e3420e3410e43f0e43e0e41a0e4140e310090090800751a0305c,
  0x4f0e74e0e64d0e54c0e54b0e5],
  [0x4a0e5490e5480e5470e3460e3450e3440e3430e3420e3410e43f0e43e0e41a0e4140e310090090800751a0305e,
  0x4f0e74e0e64d0e54c0e54b0e5], [0x1d5651c3291b5921953c162f9154ef1432c1355a100ab0f519092fc0138c],
  [0x1d5651c3291b5921953c162f9154ef1432c11152100ab0f519092fc0138c],
  [0x1d5651c3291b5921953c162f9154ef1432c11159100ab0f519092fc0138c],
  [0x1d5651c3291b5921953c162f9154ef1432c1355d100ab0f519092fc0138c],
  [0x1d5651c3291b5921953c162f9154ef1432c1355e100ab0f519092fc0138c],
  [0x4a0e5490e5480e5470e3460e3450e3440e3430e3420e3410e43f0e43e0e41a0e4140e31115c10090090800751a,
  0x4f0e74e0e64d0e54c0e54b0e5],
  [0x4a0e5490e5480e5470e3460e3450e3440e3430e3420e3410e43f0e43e0e41a0e4140e31115d10090090800751a,
  0x4f0e74e0e64d0e54c0e54b0e5], [0x1d5651c3291b5921953c162f9154ef1432c13561100ab0f519092fc0138c],
  [0x4a0df490df480df470dc460dc450dc440dc430dc420dc410dd3f0dd3e0dd1a0dd140dc100900a1cf090800751a,
  0x4f0e14e0e04d0df4c0df4b0df],
  [0x4a0e5490e5480e5470e3460e3450e3440e3430e3420e3410e43f0e43e0e41a0e4140e31131110090090800751a,
  0x4f0e74e0e64d0e54c0e54b0e5], [0x1d5651c3291b5921953c162f9154ef1432c100ab0f5190a1d2092fc0138c],
  [0x1d5651c3291b5921953c162f9154ef1432c111e2100ab0f519092fc0138c],
  [0x1d5651c3291b5921953c162f9154ef1432c111e9100ab0f519092fc0138c],
  [0x4a0e5490e5480e5470e3460e3450e3440e3430e3420e3410e43f0e43e0e41a0e4140e3111ec10090090800751a,
  0x4f0e74e0e64d0e54c0e54b0e5],
  [0x4a0e5490e5480e5470e3460e3450e3440e3430e3420e3410e43f0e43e0e41a0e4140e3111ed10090090800751a,
  0x4f0e74e0e64d0e54c0e54b0e5],
  [0x4a0df490df480df470dc460dc450dc440dc430dc420dc410dd3f0dd3e0dd1a0dd140dc100900a210090800751a,
  0x4f0e14e0e04d0df4c0df4b0df],
  [0x4a0e5490e5480e5470e3460e3450e3440e3430e3420e3410e43f0e43e0e41a0e4140e31131610090090800751a,
  0x4f0e74e0e64d0e54c0e54b0e5], [0x1d5651c3291b5921953c162f9154ef1432c100ab0f5190a212092fc0138c],
  [0x1d5651c3291b5921953c162f9154ef1432c11222100ab0f519092fc0138c],
  [0x1d5651c3291b5921953c162f9154ef1432c11229100ab0f519092fc0138c],
  [0x4a0e5490e5480e5470e3460e3450e3440e3430e3420e3410e43f0e43e0e41a0e4140e31122c10090090800751a,
  0x4f0e74e0e64d0e54c0e54b0e5],
  [0x4a0e5490e5480e5470e3460e3450e3440e3430e3420e3410e43f0e43e0e41a0e4140e31122d10090090800751a,
  0x4f0e74e0e64d0e54c0e54b0e5],
  [0x4a0df490df480df470dc460dc450dc440dc430dc420dc410dd3f0dd3e0dd1a0dd140dc100900a16e090800751a,
  0x4f0e14e0e04d0df4c0df4b0df],
  [0x4a0e5490e5480e5470e3460e3450e3440e3430e3420e3410e43f0e43e0e41a0e4140e31131b10090090800751a,
  0x4f0e74e0e64d0e54c0e54b0e5], [0x1d5651c3291b5921953c162f9154ef1432c100ab0f5190a171092fc0138c],
  [0x1d5651c3291b5921953c162f9154ef1432c11181100ab0f519092fc0138c],
  [0x1d5651c3291b5921953c162f9154ef1432c11188100ab0f519092fc0138c],
  [0x4a0e5490e5480e5470e3460e3450e3440e3430e3420e3410e43f0e43e0e41a0e4140e31118b10090090800751a,
  0x4f0e74e0e64d0e54c0e54b0e5],
  [0x4a0e5490e5480e5470e3460e3450e3440e3430e3420e3410e43f0e43e0e41a0e4140e31118c10090090800751a,
  0x4f0e74e0e64d0e54c0e54b0e5],
  [0x4a0df490df480df470dc460dc450dc440dc430dc420dc410dd3f0dd3e0dd1a0dd140dc100900a1a2090800751a,
  0x4f0e14e0e04d0df4c0df4b0df],
  [0x4a0e5490e5480e5470e3460e3450e3440e3430e3420e3410e43f0e43e0e41a0e4140e31132010090090800751a,
  0x4f0e74e0e64d0e54c0e54b0e5], [0x1d5651c3291b5921953c162f9154ef1432c100ab0f5190a1a5092fc0138c],
  [0x1d5651c3291b5921953c162f9154ef1432c111b5100ab0f519092fc0138c],
  [0x1d5651c3291b5921953c162f9154ef1432c111bc100ab0f519092fc0138c],
  [0x4a0e5490e5480e5470e3460e3450e3440e3430e3420e3410e43f0e43e0e41a0e4140e3111bf10090090800751a,
  0x4f0e74e0e64d0e54c0e54b0e5],
  [0x4a0e5490e5480e5470e3460e3450e3440e3430e3420e3410e43f0e43e0e41a0e4140e3111c010090090800751a,
  0x4f0e74e0e64d0e54c0e54b0e5],
  [0x4a0df490df480df470dc460dc450dc440dc430dc420dc410dd3f0dd3e0dd1a0dd140dc100900a267090800751a,
  0x4f0e14e0e04d0df4c0df4b0df],
  [0x4a0e5490e5480e5470e3460e3450e3440e3430e3420e3410e43f0e43e0e41a0e4140e31132510090090800751a,
  0x4f0e74e0e64d0e54c0e54b0e5], [0x1d5651c3291b5921953c162f9154ef1432c100ab0f5190a26a092fc0138c],
  [0x1d5651c3291b5921953c162f9154ef1432c1127a100ab0f519092fc0138c],
  [0x1d5651c3291b5921953c162f9154ef1432c11281100ab0f519092fc0138c],
  [0x4a0e5490e5480e5470e3460e3450e3440e3430e3420e3410e43f0e43e0e41a0e4140e31128410090090800751a,
  0x4f0e74e0e64d0e54c0e54b0e5],
  [0x4a0e5490e5480e5470e3460e3450e3440e3430e3420e3410e43f0e43e0e41a0e4140e31128510090090800751a,
  0x4f0e74e0e64d0e54c0e54b0e5], [0x1d5411c2fa1b53d1953c162f9154ef142fd100950f4f4092fc01386],
  [0x1d2ff1c2fa1b53d1953c162f9154ef142fd100950f4f4092fc01386],
  [0x1d5411c3001b53d1953c162f9154ef142fd100950f4f4092fc01386],
  [0x1d56d1c32f1b5931958c163281551714332100b20f51f0932b01359],
  [0x4b0e54a0e5490e5480e5470e3460e3450e3440e3430e3420e3410e43f0e43e0e41a0e4140e3100900908007511,
  0x4f0e74e0e64d0e54c0e5], [0x1d5651c3101b5921953c162f9154ef1432c100ab0f519092fc0138c],
  [0x1d30f1c3291b5921953c162f9154ef1432c100ab0f519092fc0138c],
  [0x1d56d1c3151b5931958c163281551714332100b20f51f0932b01359],
  [0x1d3141c32f1b5931958c163281551714332100b20f51f0932b01359],
  [0x1d5751c31a1b5941958c163281551714335100b70f5230932b0135a],
  [0x1d3191c3331b5941958c163281551714335100b70f5230932b0135a],
  [0x1d5751c3331b5941958c163281551714335100b70f5230932b0135a],
  [0x1d57c1c31f1b5951958d1632e1551d14338100bc0f52709331013b9],
  [0x1d31e1c3361b5951958d1632e1551d14338100bc0f52709331013b9],
  [0x1d57c1c3361b5951958d1632e1551d14338100bc0f52709331013b9],
  [0x1d5831c3241b5961958d1632e1551d1433b100c10f52b09331013ba],
  [0x1d3231c3391b5961958d1632e1551d1433b100c10f52b09331013ba],
  [0x1d5831c3391b5961958d1632e1551d1433b100c10f52b09331013ba], [0xcd47], [0x102f707567], [0xc0cd],
  [0xc8cd], [0x102f7], [0xcd49],
  [0x2b0972a0972909728097270972609725097240972309722097210971e0980d097],
  [0x2b0a92a0a9290a9280a9270a9260a9250a9240a9230a9220a9210a91e07b0d07a],
  [0x2b0a92a0a9290a9280a9270a9260a9250a9240a9230a9220a9210a91e09d0d0a9], [0xcd51],
  [0x2b0a92a0a9290a9280a9270a9260a9250a9240a9230a9220a9210a91e0aa0d0a9],
  [0x2b0ac2a0ac290ac280ac270ac260ac250ac240ac230ac220ac210ac1e0ad0d0ac], [0x5201450015102f707567],
  [0x102c3], [0x5201450015102f7], [0x102f70923d07567], [0x52014500150a4b30801c0700c0101a],
  [0x52014500150a4b80801c0700c0101a], [0x52014500150801c0700c0101a], [0x17062102c3],
  [0x18397162f91443701199], [0x183a2162f91443701199], [0x183a7162f91443701199], [0xc102], [0xc902],
  [0x102f80756f], [0x17062], [0x18368162f91443701199], [0x17051], [0x18374162f91443701199],
  [0x18378162f91443701199], [0x1841d162f91443701199], [0x1842a162f91443701199],
  [0x1842e162f91443701199], [0x13d5], [0x13d6], [0x404d0304d0204d], [0xd0a1], [0x404e0304e0204e],
  [0x3545f], [0xd0a6], [0x48580385802858], [0x3546e], [0x162f91443701199], [0x102f8],
  [0x3a54d3909c183e4], [0x3a54d39074183e8], [0x102c30923c07023], [0x1a30a], [0x3a54d3909c183f6],
  [0x3a54d3930c183f9], [0x3a54d3909c183fb], [0x3a54d39074183fd], [0x1a32d1033d0911a], [0x17052],
  [0x3ad4d3989c], [0x3a54d3909c18407], [0x3a54d3930c1840a], [0x3a54d3909c1840c], [0x3ad4d39874],
  [0x1ab0a], [0x3a54d3909c1840f], [0x3a54d3909c18410], [0x3ad4d39b0c], [0x3a54d3909c18413],
  [0xc0db], [0xc8db], [0x102c30923d07023], [0x1033d], [0x17061102c3], [0xa3e101294],
  [0x45010350102501], [0xa3f301294], [0x162f901387], [0x1839d043b3033b3023b3],
  [0x183a0042550325502255], [0x1a94], [0x183a2043b6033b6023b6], [0x183a3042580325802258],
  [0x4bcc03bcc02bcc], [0x4a9e03a9e02a9e], [0x1704f], [0x1836f043be033be023be],
  [0x183720428a0328a0228a], [0xa4b30438e0338e0238e], [0x18374043bf033bf023bf],
  [0x183750428b0328b0228b], [0x17063102c3], [0x18425043c1033c1023c1], [0x18428042910329102291],
  [0x1842a043c2033c2023c2], [0x1842b042920329202292], [0x17064102c3], [0x17065102c3],
  [0x17066102c3], [0x945401250], [0x943401294], [0x17061], [0xa3de011c6], [0xa3df01250],
  [0x104f90923c], [0xa3ee011c6], [0xa3f001250], [0x2c075181490c067], [0x19c6], [0x1a50],
  [0x3405f1704f], [0xcb0e], [0x1a32d], [0x1ab2d], [0x104f90923d], [0x2c075181d90c069], [0x17063],
  [0x17053], [0x2c075182190c06b], [0x5547b5422e5347b], [0x17064], [0x550345423053034], [0x17054],
  [0x2c075181780c06d], [0x554805418d53480], [0x17065], [0x550345418f53034], [0x17055],
  [0x2c075181ac0c06f], [0x55485541c153485], [0x17066], [0x55034541c353034], [0x17056],
  [0x2c075182710c071], [0x554895428653489], [0x550345428853034], [0x9453011c6], [0x920701455],
  [0x1033d0a3950911a], [0x44fd034fd024fd], [0x44fe034fe024fe], [0xc23f0a352], [0xc0a30a148],
  [0x113a10c29a], [0x181490c067], [0x1114b0c2c9], [0xc07e0a14c], [0xc2420a353], [0x113820c4a0],
  [0xc0a70a14f], [0x113a50c29c], [0x181500c068], [0x111520c2cb], [0xc07f0a154], [0xca5a],
  [0x1138401254], [0x113840c4aa], [0x2c04b0c30e], [0xcacf], [0x2c075], [0xc873], [0xc8a8],
  [0x1138501254], [0xcd10], [0x2c04c0c30e], [0xc10f], [0xc2480a356], [0xc0af0a1d8], [0x113730c2a4],
  [0x181d90c069], [0x111db0c2d7], [0xc0820a1dc], [0xc90c], [0xc2490a357], [0xc0b10a1df],
  [0x113770c2a6], [0x181e00c06a], [0x111e20c2d8], [0xc0830a1e4], [0xc24b0a34c], [0xc0b40a218],
  [0x114290c2ac], [0x182190c06b], [0x1121b0c2de], [0xc0850a21c], [0xc24c0a34d], [0xc0b60a21f],
  [0x1142d0c2ae], [0x182200c06c], [0x112220c2df], [0xc0860a224], [0xc0b90a177], [0x181780c06d],
  [0x1117a0c2e5], [0xc0880a17b], [0xc0bb0a17e], [0x1817f0c06e], [0x111810c2e6], [0xc0890a183],
  [0xc0be0a1ab], [0x181ac0c06f], [0x111ae0c2ec], [0xc08b0a1af], [0xc0c00a1b2], [0x181b30c070],
  [0x111b50c2ed], [0xc08c0a1b7], [0xc0c30a270], [0x182710c071], [0x112730c2f3], [0xc08e0a274],
  [0xc0c50a277], [0x182780c072], [0x1127a0c2f4], [0xc08f0a27c], [0x920701474], [0xc90f], [0x173ac],
  [0x10301090cc], [0x9207], [0x10301], [0x930701144], [0x9077], [0x1254], [0x923c], [0x92c801173],
  [0x1e0d70d0d7], [0x92cc011d4], [0x92cd011d4], [0x92d2011d4], [0x173bc], [0x933e011d4], [0x9080],
  [0x923d], [0x173c0], [0x934101214], [0x9084], [0x934401173], [0x9087], [0x9347011a7], [0x908a],
  [0x934a0126c], [0x908d], [0x1033d0911a], [0x103400911e], [0x10340], [0x1034309122], [0x10343],
  [0x1034609126], [0x10346], [0x103490912a], [0x10349], [0x17251], [0x102fe], [0x13d7], [0x173db],
  [0x11303], [0x1c306], [0x18139], [0x30d4], [0x309b], [0x307c], [0x173e6], [0x1350], [0xd09f],
  [0x137e], [0xa352], [0xa395], [0x1130b], [0x2c048], [0x18149], [0xd0a5], [0x1383], [0x2c049],
  [0x1e0d6], [0x2c04a], [0xa151], [0xa153], [0xa55c], [0xa55f], [0xa560], [0xa562], [0xa366],
  [0xa41b], [0x1c312], [0x181d1], [0x136d], [0xa356], [0x11313], [0x181d9], [0xa1e1], [0xa1e3],
  [0x1c317], [0x18473], [0x1422], [0xa34c], [0x11318], [0x18219], [0xa221], [0xa223], [0x1c31c],
  [0x18237], [0x5022f], [0x1131d], [0x18178], [0xa180], [0xa182], [0x1c321], [0x18170], [0x5018e],
  [0x11322], [0x181ac], [0xa1b4], [0xa1b6], [0x1c326], [0x181a4], [0x501c2], [0x11327], [0x18271],
  [0xa279], [0xa27b], [0x18269], [0x50287], [0x17289], [0x17290], [0x51577], [0x5157e], [0x51585],
  [0x5158b], [0x1033c], [0x1033f], [0x10342], [0x10345], [0x10348]]

end ImportGroups.Source.Automaton
