/-!
The states that the automaton goes to after whole phrases.

A row says where the automaton goes with each phrase that may stand there. The entries are written
like those of the shifts, with the number of the phrase in place of the symbol.
-/

namespace ImportGroups.Source.Automaton

def phraseRows : Array (List Nat) := #[
  [], [0x1f4521e4521d4f11c4521b38f19452184f0174f01637b143d00d0050c005093d0073d0063d0020050100500004,
  0x383d0373d0353d0343d1333d1323d1313d12f3d12e3d12d3d02c3d02b02e293d02838f2738f264522338f20388,
  0x54006530065200651006500064c0064b0064a12f483d0453d0423d03f3d03e3d03d3d03c3d03b3d03a3d0393d0,
  0x600075f0065e0065d4335c0065b0065a0065600655006], [0x5f0105e0100500f0400d0300f],
  [0x203881f4521e4521d4f11c4521b38f19452184f0174f01637b143d00d0170c017093d0073d0063d00201701017,
  0x393d0383d0373d0353d0343d1333d1323d1313d12f3d12e3d12d3d02c3d02b02e293d02838f2738f264522338f,
  0x5500654006530065200651006500064c0064b0064a12f483d0453d0423d03f3d03e3d03d3d03c3d03b3d03a3d0,
  0x600185f0065e0065d4335c0065b0065a00656006], [0x5f0195e019], [0x5f01e5e01e0401c0301d], [0x7601f],
  [0x5f0215e021], [0x5713d1a393],
  [0x51028500284c0284b0284a2c02838f2738f263bb2338f203881f3bb1e3bb1d5181c3bb1b38f193bb1848c1748c,
  0x5f0285e0285d3ab5c0285b0285a0285602855028540285302852028], [0x76029],
  [0x203881f4521e4521d4f11c4521b38f19452184f0174f01637b143d00d02e0c02e093d0073d0063d00202e0102e,
  0x393d0383d0373d0353d0343d1333d1323d1313d12f3d12e3d12d3d02c3d02b02e293d02838f2738f264522338f,
  0x5500654006530065200651006500064c0064b0064a12f483d0453d0423d03f3d03e3d03d3d03c3d03b3d03a3d0,
  0x600185f0065e0065d4335c0065b0065a00656006], [0x5f02f5e02f], [0x5f0305e030], [0x61033], [0x76034],
  [0x571cc1a393],
  [0x51028500284c0284b0284a2d42838f2738f263bb2338f203881f3bb1e3bb1d5181c3bb1b38f193bb1848c1748c,
  0x5f0285e0285d3ab5c0285b0285a0285602855028540285302852028], [0x76038],
  [0x5f01e5e01e0503f0401c0303f], [0x5f01e5e01e0401c03041], [0x61043], [0x5f01e5e01e0401c03047],
  [0x61445],
  [0x2838f2738f264522338f203881f4521e4521d4f11c4521b38f19452184f0174f01637b143d0093d0073d0063d0,
  0x3b3d03a3d0393d0383d0373d03648d353d0343d1333d1323d1313d12f3d12e3d12d3d02c3d02b3c52a4a3293d0,
  0x5a006560065500654006530065200651006500064c0064b0064a12f483d0453d0423d03f3d03e3d03d3d03c3d0,
  0x5f0065e0065d4335c0065b006],
  [0x2838f2738f264522338f203881f4521e4521d4f11c4521b38f19452184f0174f01637b143d0093d0073d0063d0,
  0x3b3d03a3d0393d0383d0373d03648d353d0343d1333d1323d1313d12f3d12e3d12d3d02c3d02b3c52a4ac293d0,
  0x5a006560065500654006530065200651006500064c0064b0064a12f483d0453d0423d03f3d03e3d03d3d03c3d0,
  0x5f0065e0065d4335c0065b006],
  [0x2838f2738f264522338f203881f4521e4521d4f11c4521b38f19452184f0174f01637b143d0093d0073d0063d0,
  0x3b3d03a3d0393d0383d0373d03648d353d0343d1333d1323d1313d12f3d12e3d12d3d02c3d02b3c52a4ae293d0,
  0x5a006560065500654006530065200651006500064c0064b0064a12f483d0453d0423d03f3d03e3d03d3d03c3d0,
  0x5f0065e0065d4335c0065b006],
  [0x2838f2738f264522338f203881f4521e4521d4f11c4521b38f19452184f0174f01637b143d0093d0073d0063d0,
  0x3b3d03a3d0393d0383d0373d03648d353d0343d1333d1323d1313d12f3d12e3d12d3d02c3d02b3c52a4af293d0,
  0x5a006560065500654006530065200651006500064c0064b0064a12f483d0453d0423d03f3d03e3d03d3d03c3d0,
  0x5f0065e0065d4335c0065b006],
  [0x2838f2738f264522338f203881f4521e4521d4f11c4521b38f19452184f0174f01637b143d0093d0073d0063d0,
  0x3b3d03a3d0393d0383d0373d03648d353d0343d1333d1323d1313d12f3d12e3d12d3d02c3d02b3c52a4b0293d0,
  0x5a006560065500654006530065200651006500064c0064b0064a12f483d0453d0423d03f3d03e3d03d3d03c3d0,
  0x5f0065e0065d4335c0065b006],
  [0x2838f2738f264522338f203881f4521e4521d4f11c4521b38f19452184f0174f01637b143d0093d0073d0063d0,
  0x3c3d03b3d03a3d0393d0383d0373d036499353d0343d1333d1323d1313d12f3d12e3d12d3d02c3d02b3f4293d0,
  0x5b0065a006560065500654006530065200651006500064c0064b0064a12f483d0453d0423d03f3d03e3d03d3d0,
  0x5f0065e0065d4335c006],
  [0x2838f2738f264522338f203881f4521e4521d4f11c4521b38f19452184f0174f01637b143d0093d0073d0063d0,
  0x3c3d03b3d03a3d0393d0383d0373d0364a2353d0343d1333d1323d1313d12f3d12e3d12d3d02c3d02b3f4293d0,
  0x5b0065a006560065500654006530065200651006500064c0064b0064a12f483d0453d0423d03f3d03e3d03d3d0,
  0x5f0065e0065d4335c006],
  [0x2838f2738f264522338f203881f4521e4521d4f11c4521b38f19452184f0174f01637b143d0093d0073d0063d0,
  0x3b3d03a3d0393d0383d0373d03648d353d0343d1333d1323d1313d12f3d12e3d12d3d02c3d02b3c52a542293d0,
  0x5a006560065500654006530065200651006500064c0064b0064a12f483d0453d0423d03f3d03e3d03d3d03c3d0,
  0x5f0065e0065d4335c0065b006],
  [0x2838f2738f264522338f203881f4521e4521d4f11c4521b38f19452184f0174f01637b143d0093d0073d0063d0,
  0x3d3d03c3d03b3d03a3d0393d0383d0373d0353d0343d1333d1323d1313d12f3d12e3d12d3d02c3d02b3ea293d0,
  0x5c0065b0065a006560065500654006530065200651006500064c0064b0064a12f483d0453d0423d03f3d03e3d0,
  0x5f0065e0065d433],
  [0x2838f2738f264522338f203881f4521e4521d4f11c4521b38f19452184f0174f01637b143d0093d0073d0063d0,
  0x3b3d03a3d0393d0383d0373d03648d353d0343d1333d1323d1313d12f3d12e3d12d3d02c3d02b3c52a566293d0,
  0x5a006560065500654006530065200651006500064c0064b0064a12f483d0453d0423d03f3d03e3d03d3d03c3d0,
  0x5f0065e0065d4335c0065b006],
  [0x2838f2738f264522338f203881f4521e4521d4f11c4521b38f19452184f0174f01637b143d0093d0073d0063d0,
  0x3b3d03a3d0393d0383d0373d03648d353d0343d1333d1323d1313d12f3d12e3d12d3d02c3d02b3c52a56e293d0,
  0x5a006560065500654006530065200651006500064c0064b0064a12f483d0453d0423d03f3d03e3d03d3d03c3d0,
  0x5f0065e0065d4335c0065b006],
  [0x2838f2738f264522338f203881f4521e4521d4f11c4521b38f19452184f0174f01637b143d0093d0073d0063d0,
  0x3b3d03a3d0393d0383d0373d03648d353d0343d1333d1323d1313d12f3d12e3d12d3d02c3d02b3c52a576293d0,
  0x5a006560065500654006530065200651006500064c0064b0064a12f483d0453d0423d03f3d03e3d03d3d03c3d0,
  0x5f0065e0065d4335c0065b006],
  [0x2838f2738f264522338f203881f4521e4521d4f11c4521b38f19452184f0174f01637b143d0093d0073d0063d0,
  0x3b3d03a3d0393d0383d0373d03648d353d0343d1333d1323d1313d12f3d12e3d12d3d02c3d02b3c52a57d293d0,
  0x5a006560065500654006530065200651006500064c0064b0064a12f483d0453d0423d03f3d03e3d03d3d03c3d0,
  0x5f0065e0065d4335c0065b006],
  [0x2838f2738f264522338f203881f4521e4521d4f11c4521b38f19452184f0174f01637b143d0093d0073d0063d0,
  0x3b3d03a3d0393d0383d0373d03648d353d0343d1333d1323d1313d12f3d12e3d12d3d02c3d02b3c52a584293d0,
  0x5a006560065500654006530065200651006500064c0064b0064a12f483d0453d0423d03f3d03e3d03d3d03c3d0,
  0x5f0065e0065d4335c0065b006],
  [0x2838f2738f264522338f203881f4521e4521d4f11c4521b38f19452184f0174f01637b143d0093d0073d0063d0,
  0x3b3d03a3d0393d0383d0373d03648d353d0343d1333d1323d1313d12f3d12e3d12d3d02c3d02b3c52a58a293d0,
  0x5a006560065500654006530065200651006500064c0064b0064a12f483d0453d0423d03f3d03e3d03d3d03c3d0,
  0x5f0065e0065d4335c0065b006],
  [0x2838f2738f264522338f203881f4521e4521d4f11c4521b38f19452184f0174f01637b143d0093d0073d0063d0,
  0x3d3d03c3d03b3d03a3d0393d0383d0373d0353d0343d1333d1323d1313d12f3d12e3d12d3d02c3d02b3f4293d0,
  0x5c0065b0065a006560065500654006530065200651006500064c0064b0064a12f483d0453d0423d03f3d03e3d0,
  0x5f0065e0065d433],
  [0x2f5122e5122d544293d92838f2738f2647a2338f203881f47a1e47a1d5221c47a1b38f1947a18536175361637c,
  0x5b1685a168561685516854168531685216851168501684c1684b1684a13b414f5404f534512335123251231512,
  0x5f1685e1685d44d5c168],
  [0x315122f5122e5122d5452838f2738f2647a2338f203881f47a1e47a1d5221c47a1b38f1947a18536175361637d,
  0x5d44d5c1685b1685a168561685516854168531685216851168501684c1684b1684a15e46546345123351232512,
  0x5f1685e168],
  [0x315122f5122e5122d5522838f2738f2647a2338f203881f47a1e47a1d5221c47a1b38f1947a185361753616381,
  0x5e1685d44d5c1685b1685a168561685516854168531685216851168501684c1684b1684a15f345123351232512,
  0x5f168],
  [0x315122f5122e5122d5582838f2738f2647a2338f203881f47a1e47a1d5221c47a1b38f1947a185361753616381,
  0x5e1685d44d5c1685b1685a168561685516854168531685216851168501684c1684b1684a15f345123351232512,
  0x5f168],
  [0x315122f5122e5122d5592838f2738f2647a2338f203881f47a1e47a1d5221c47a1b38f1947a185361753616381,
  0x5e1685d44d5c1685b1685a168561685516854168531685216851168501684c1684b1684a15f345123351232512,
  0x5f168],
  [0x315122f5122e5122d55b2838f2738f2647a2338f203881f47a1e47a1d5221c47a1b38f1947a185361753616381,
  0x5e1685d44d5c1685b1685a168561685516854168531685216851168501684c1684b1684a15f345123351232512,
  0x5f168],
  [0x315122f5122e5122d5432838f2738f2647a2338f203881f47a1e47a1d5221c47a1b38f1947a185361753616380,
  0x5e1685d44d5c1685b1685a168561685516854168531685216851168501684c1684b1684a13a345123351232512,
  0x5f168],
  [0x5020b4c20b4b20b4a1c92838f2738f264762338f203881f4761e4761d51e1c4761b38f194761853417534163d8,
  0x5f20b5e20b5d4485c20b5b20b5a20b5620b5520b5420b5320b5220b5120b],
  [0x51028500284c0284b0284a2532838f2738f263bb2338f203881f3bb1e3bb1d5181c3bb1b38f193bb1853317533,
  0x5f0285e0285d3ab5c0285b0285a0285949458459574935602855028540285302852028],
  [0x51028500284c0284b0284a2532838f2738f263bb2338f203881f3bb1e3bb1d5181c3bb1b38f193bb1853317533,
  0x5f0285e0285d3ab5c0285b0285a028594bf58475574935602855028540285302852028],
  [0x51028500284c0284b0284a2532838f2738f263bb2338f203881f3bb1e3bb1d5181c3bb1b38f193bb1853317533,
  0x5f0285e0285d3ab5c0285b0285a028594cc58478574935602855028540285302852028],
  [0x51028500284c0284b0284a2532838f2738f263bb2338f203881f3bb1e3bb1d5181c3bb1b38f193bb1853317533,
  0x5f0285e0285d3ab5c0285b0285a028594d65847d574935602855028540285302852028],
  [0x51028500284c0284b0284a2532838f2738f263bb2338f203881f3bb1e3bb1d5181c3bb1b38f193bb1853317533,
  0x5f0285e0285d3ab5c0285b0285a028594de58482574935602855028540285302852028],
  [0x51028500284c0284b0284a2532838f2738f263bb2338f203881f3bb1e3bb1d5181c3bb1b38f193bb1853317533,
  0x5f0285e0285d3ab5c0285b0285a028594e658487574935602855028540285302852028],
  [0x51028500284c0284b0284a2532838f2738f263bb2338f203881f3bb1e3bb1d5181c3bb1b38f193bb1853317533,
  0x5f0285e0285d3ab5c0285b0285a0285950b584a6574935602855028540285302852028],
  [0x4b2604a204305552f5552838f2738f264842338f203881f4841e4841d52a1c4841b38f194841853a1753a16502,
  0x5f2605e2605d44f5c2605b2605a260562605526054260532605226051260502604c260],
  [0x51028500284c0284b0284a2532838f2738f263bb2338f203881f3bb1e3bb1d5181c3bb1b38f193bb1853317533,
  0x5f0285e0285d3ab5c0285b0285a0285850c574935602855028540285302852028],
  [0x51028500284c0284b0284a2c12838f2738f263bb2338f203881f3bb1e3bb1d5181c3bb1b38f193bb1853317533,
  0x5f0285e0285d3ab5c0285b0285a0285602855028540285302852028],
  [0x500284d4964c0284b0284a23e2838f2738f263bb2338f203881f3bb1e3bb1d5181c3bb1b38f193bb1853317533,
  0x5f0285e0285d3ab5c0285b0285a028560285502854028530285202851028],
  [0x500284c0284b0284a2962838f2738f263bb254922338f203881f3bb1e3bb1d5181c3bb1b38f193bb183ed173ed,
  0x5f0285e0285d3ab5c0285b0285a028560285502854028530285202851028],
  [0x500284c0284b0284a2dc2838f2738f263bb2338f203881f3bb1e3bb1d5181c3bb1b38f193bb18533175330f498,
  0x5f0285e0285d3ab5c0285b0285a028560285502854028530285202851028],
  [0x500284c0284b0284a2432838f2738f263bb2338f203881f3bb1e3bb1d5181c3bb1b38f193bb185331753316515,
  0x5f0285e0285d3ab5c0285b0285a028560285502854028530285202851028],
  [0x500284c0284b0284a2432838f2738f263bb2338f203881f3bb1e3bb1d5181c3bb1b38f193bb185331753316516,
  0x5f0285e0285d3ab5c0285b0285a028560285502854028530285202851028],
  [0x500284c0284b0284a2412838f2738f263bb2338f203881f3bb1e3bb1d5181c3bb1b38f193bb185331753316554,
  0x5f0285e0285d3ab5c0285b0285a028560285502854028530285202851028],
  [0x500284c0284b0284a2d52838f2738f263bb254922338f203881f3bb1e3bb1d5181c3bb1b38f193bb183ed173ed,
  0x5f0285e0285d3ab5c0285b0285a028560285502854028530285202851028],
  [0x500284d50d4c0284b0284a2592838f2738f263bb2338f203881f3bb1e3bb1d5181c3bb1b38f193bb1853317533,
  0x5f0285e0285d3ab5c0285b0285a028560285502854028530285202851028],
  [0x500284d4c14c0284b0284a2472838f2738f263bb2338f203881f3bb1e3bb1d5181c3bb1b38f193bb1853317533,
  0x5f0285e0285d3ab5c0285b0285a028560285502854028530285202851028],
  [0x500284c0284b0284a2dc2838f2738f263bb254be2338f203881f3bb1e3bb1d5181c3bb1b38f193bb183ed173ed,
  0x5f0285e0285d3ab5c0285b0285a028560285502854028530285202851028],
  [0x500284d4ce4c0284b0284a24a2838f2738f263bb2338f203881f3bb1e3bb1d5181c3bb1b38f193bb1853317533,
  0x5f0285e0285d3ab5c0285b0285a028560285502854028530285202851028],
  [0x500284d4d84c0284b0284a24d2838f2738f263bb2338f203881f3bb1e3bb1d5181c3bb1b38f193bb1853317533,
  0x5f0285e0285d3ab5c0285b0285a028560285502854028530285202851028],
  [0x500284d4e04c0284b0284a24e2838f2738f263bb2338f203881f3bb1e3bb1d5181c3bb1b38f193bb1853317533,
  0x5f0285e0285d3ab5c0285b0285a028560285502854028530285202851028],
  [0x500284d4e84c0284b0284a24f2838f2738f263bb2338f203881f3bb1e3bb1d5181c3bb1b38f193bb1853317533,
  0x5f0285e0285d3ab5c0285b0285a028560285502854028530285202851028],
  [0x500284c0284b0284a2a32838f2738f263bb254922338f203881f3bb1e3bb1d5181c3bb1b38f193bb183ed173ed,
  0x5f0285e0285d3ab5c0285b0285a028560285502854028530285202851028],
  [0x500284c0284b0284a2ab2838f2738f263bb254922338f203881f3bb1e3bb1d5181c3bb1b38f193bb183ed173ed,
  0x5f0285e0285d3ab5c0285b0285a028560285502854028530285202851028],
  [0x500284c0284b0284a2b22838f2738f263bb254922338f203881f3bb1e3bb1d5181c3bb1b38f193bb183ed173ed,
  0x5f0285e0285d3ab5c0285b0285a028560285502854028530285202851028],
  [0x500284c0284b0284a2b72838f2738f263bb254922338f203881f3bb1e3bb1d5181c3bb1b38f193bb183ed173ed,
  0x5f0285e0285d3ab5c0285b0285a028560285502854028530285202851028],
  [0x500284c0284b0284a2bc2838f2738f263bb254922338f203881f3bb1e3bb1d5181c3bb1b38f193bb183ed173ed,
  0x5f0285e0285d3ab5c0285b0285a028560285502854028530285202851028],
  [0x51028500284c0284b0284a2c52838f2738f263bb2338f203881f3bb1e3bb1d5181c3bb1b38f193bb1853317533,
  0x5f0285e0285d3ab5c0285b0285a0285602855028540285302852028],
  [0x5020b4c20b4b20b4a1c92838f2738f264762338f203881f4761e4761d51e1c4761b38f194761853417534163eb,
  0x5f20b5e20b5d4485c20b5b20b5a20b5620b5520b5420b5320b5220b5120b],
  [0x5020b4c20b4b20b4a1c92838f2738f264762338f203881f4761e4761d51e1c4761b38f194761853417534163ec,
  0x5f20b5e20b5d4485c20b5b20b5a20b5620b5520b5420b5320b5220b5120b],
  [0x5020b4c20b4b20b4a1c92838f2738f264762338f203881f4761e4761d51e1c4761b38f194761853417534163ef,
  0x5f20b5e20b5d4485c20b5b20b5a20b5620b5520b5420b5320b5220b5120b],
  [0x5020b4c20b4b20b4a1c92838f2738f264762338f203881f4761e4761d51e1c4761b38f194761853417534163f1,
  0x5f20b5e20b5d4485c20b5b20b5a20b5620b5520b5420b5320b5220b5120b],
  [0x51028500284c0284b0284a2c72838f2738f263bb2338f203881f3bb1e3bb1d5181c3bb1b38f193bb1853317533,
  0x5f0285e0285d3ab5c0285b0285a0285602855028540285302852028],
  [0x500284c0284b0284a2432838f2738f263bb2338f203881f3bb1e3bb1d5181c3bb1b38f193bb185331753316553,
  0x5f0285e0285d3ab5c0285b0285a028560285502854028530285202851028],
  [0x500284c0284b0284a2562838f2738f263bb2338f203881f3bb1e3bb1d5181c3bb1b38f193bb185331753316516,
  0x5f0285e0285d3ab5c0285b0285a028560285502854028530285202851028],
  [0x51028500284c0284b0284a29b2838f2738f263bb2338f203881f3bb1e3bb1d5181c3bb1b38f193bb1853317533,
  0x5f0285e0285d3ab5c0285b0285a0285602855028540285302852028],
  [0x5020b4c20b4b20b4a1c92838f2738f264762338f203881f4761e4761d51e1c4761b38f194761853417534163ff,
  0x5f20b5e20b5d4485c20b5b20b5a20b5620b5520b5420b5320b5220b5120b],
  [0x5020b4c20b4b20b4a1c92838f2738f264762338f203881f4761e4761d51e1c4761b38f19476185341753416400,
  0x5f20b5e20b5d4485c20b5b20b5a20b5620b5520b5420b5320b5220b5120b],
  [0x5020b4c20b4b20b4a1c92838f2738f264762338f203881f4761e4761d51e1c4761b38f19476185341753416401,
  0x5f20b5e20b5d4485c20b5b20b5a20b5620b5520b5420b5320b5220b5120b],
  [0x5020b4c20b4b20b4a1c92838f2738f264762338f203881f4761e4761d51e1c4761b38f19476185341753416402,
  0x5f20b5e20b5d4485c20b5b20b5a20b5620b5520b5420b5320b5220b5120b],
  [0x51028500284c0284b0284a2a02838f2738f263bb2338f203881f3bb1e3bb1d5181c3bb1b38f193bb1853317533,
  0x5f0285e0285d3ab5c0285b0285a0285602855028540285302852028],
  [0x51028500284c0284b0284a29d2838f2738f263bb2338f203881f3bb1e3bb1d5181c3bb1b38f193bb1853317533,
  0x5f0285e0285d3ab5c0285b0285a0285602855028540285302852028],
  [0x5020b4c20b4b20b4a1c92838f2738f264762338f203881f4761e4761d51e1c4761b38f1947618534175341640d,
  0x5f20b5e20b5d4485c20b5b20b5a20b5620b5520b5420b5320b5220b5120b],
  [0x5020b4c20b4b20b4a1c92838f2738f264762338f203881f4761e4761d51e1c4761b38f1947618534175341640e,
  0x5f20b5e20b5d4485c20b5b20b5a20b5620b5520b5420b5320b5220b5120b],
  [0x51028500284c0284b0284a2d52838f2738f263bb2338f203881f3bb1e3bb1d5181c3bb1b38f193bb1853317533,
  0x5f0285e0285d3ab5c0285b0285a0285602855028540285302852028],
  [0x500284c0284b0284a25f2838f2738f263bb2338f203881f3bb1e3bb1d5181c3bb1b38f193bb185331753316515,
  0x5f0285e0285d3ab5c0285b0285a028560285502854028530285202851028],
  [0x500284c0284b0284a25f2838f2738f263bb2338f203881f3bb1e3bb1d5181c3bb1b38f193bb185331753316516,
  0x5f0285e0285d3ab5c0285b0285a028560285502854028530285202851028],
  [0x51028500284c0284b0284a2a52838f2738f263bb2338f203881f3bb1e3bb1d5181c3bb1b38f193bb1853317533,
  0x5f0285e0285d3ab5c0285b0285a0285602855028540285302852028],
  [0x51028500284c0284b0284a2a72838f2738f263bb2338f203881f3bb1e3bb1d5181c3bb1b38f193bb1853317533,
  0x5f0285e0285d3ab5c0285b0285a0285602855028540285302852028],
  [0x51028500284c0284b0284a2dc2838f2738f263bb2338f203881f3bb1e3bb1d5181c3bb1b38f193bb1853317533,
  0x5f0285e0285d3ab5c0285b0285a0285602855028540285302852028],
  [0x51028500284c0284b0284a2ad2838f2738f263bb2338f203881f3bb1e3bb1d5181c3bb1b38f193bb1853317533,
  0x5f0285e0285d3ab5c0285b0285a0285602855028540285302852028],
  [0x51028500284c0284b0284a2af2838f2738f263bb2338f203881f3bb1e3bb1d5181c3bb1b38f193bb1853317533,
  0x5f0285e0285d3ab5c0285b0285a0285602855028540285302852028],
  [0x51028500284c0284b0284a2e32838f2738f263bb2338f203881f3bb1e3bb1d5181c3bb1b38f193bb1853317533,
  0x5f0285e0285d3ab5c0285b0285a0285602855028540285302852028],
  [0x51028500284c0284b0284a2b32838f2738f263bb2338f203881f3bb1e3bb1d5181c3bb1b38f193bb1853317533,
  0x5f0285e0285d3ab5c0285b0285a0285602855028540285302852028],
  [0x51028500284c0284b0284a2b42838f2738f263bb2338f203881f3bb1e3bb1d5181c3bb1b38f193bb1853317533,
  0x5f0285e0285d3ab5c0285b0285a0285602855028540285302852028],
  [0x51028500284c0284b0284a2ea2838f2738f263bb2338f203881f3bb1e3bb1d5181c3bb1b38f193bb1853317533,
  0x5f0285e0285d3ab5c0285b0285a0285602855028540285302852028],
  [0x51028500284c0284b0284a2b82838f2738f263bb2338f203881f3bb1e3bb1d5181c3bb1b38f193bb1853317533,
  0x5f0285e0285d3ab5c0285b0285a0285602855028540285302852028],
  [0x51028500284c0284b0284a2b92838f2738f263bb2338f203881f3bb1e3bb1d5181c3bb1b38f193bb1853317533,
  0x5f0285e0285d3ab5c0285b0285a0285602855028540285302852028],
  [0x51028500284c0284b0284a2f12838f2738f263bb2338f203881f3bb1e3bb1d5181c3bb1b38f193bb1853317533,
  0x5f0285e0285d3ab5c0285b0285a0285602855028540285302852028],
  [0x51028500284c0284b0284a2bd2838f2738f263bb2338f203881f3bb1e3bb1d5181c3bb1b38f193bb1853317533,
  0x5f0285e0285d3ab5c0285b0285a0285602855028540285302852028],
  [0x51028500284c0284b0284a2be2838f2738f263bb2338f203881f3bb1e3bb1d5181c3bb1b38f193bb1853317533,
  0x5f0285e0285d3ab5c0285b0285a0285602855028540285302852028],
  [0x51006500064c0064b0064a1312838f2738f264522338f203881f4521e4521d4f11c4521b38f19452184f3174f3,
  0x5f0065e0065d4335c0065b0065a0065600655006540065300652006],
  [0x51006500064c0064b0064a1312838f2738f264522338f203881f4521e4521d4f11c4521b38f19452184f0174f0,
  0x5f0065e0065d4335c0065b0065a0065600655006540065300652006],
  [0x5120b5020b4c20b4b20b4a1fc2838f2738f264762338f203881f4761e4761d51e1c4761b38f194761853417534,
  0x5f20b5e20b5d4485c20b5b20b5a20b5620b5520b5420b5320b5220b],
  [0x5120b5020b4c20b4b20b4a1fd2838f2738f264762338f203881f4761e4761d51e1c4761b38f194761853417534,
  0x5f20b5e20b5d4485c20b5b20b5a20b5620b5520b5420b5320b5220b],
  [0x51028500284c0284b0284a2c62838f2738f263bb2338f203881f3bb1e3bb1d5181c3bb1b38f193bb1853317533,
  0x5f0285e0285d3ab5c0285b0285a0285602855028540285302852028],
  [0x51028500284c0284b0284a2952838f2738f263bb2338f203881f3bb1e3bb1d5181c3bb1b38f193bb1853317533,
  0x5f0285e0285d3ab5c0285b0285a0285602855028540285302852028],
  [0x5119c5019c4c19c4b19c4a1912838f2738f2647f2338f203881f47f1e47f1d5261c47f1b38f1947f1853817538,
  0x5f19c5e19c5d44e5c19c5b19c5a19c5619c5519c5419c5319c5219c],
  [0x51006500064c0064b0064a1322838f2738f264522338f203881f4521e4521d4f11c4521b38f19452184f0174f0,
  0x5f0065e0065d4335c0065b0065a0065600655006540065300652006],
  [0x51006500064c0064b0064a1332838f2738f264522338f203881f4521e4521d4f11c4521b38f19452184f0174f0,
  0x5f0065e0065d4335c0065b0065a0065600655006540065300652006],
  [0x5120b5020b4c20b4b20b4a2012838f2738f264762338f203881f4761e4761d51e1c4761b38f194761853417534,
  0x5f20b5e20b5d4485c20b5b20b5a20b5620b5520b5420b5320b5220b],
  [0x51006500064c0064b0064a1342838f2738f264522338f203881f4521e4521d4f11c4521b38f19452184f0174f0,
  0x5f0065e0065d4335c0065b0065a0065600655006540065300652006],
  [0x51006500064c0064b0064a1352838f2738f264522338f203881f4521e4521d4f11c4521b38f19452184f0174f0,
  0x5f0065e0065d4335c0065b0065a0065600655006540065300652006],
  [0x51006500064c0064b0064a1362838f2738f264522338f203881f4521e4521d4f11c4521b38f19452184f0174f0,
  0x5f0065e0065d4335c0065b0065a0065600655006540065300652006],
  [0x51028500284c0284b0284a2992838f2738f263bb2338f203881f3bb1e3bb1d5181c3bb1b38f193bb1853317533,
  0x5f0285e0285d3ab5c0285b0285a0285602855028540285302852028],
  [0x51028500284c0284b0284a2ca2838f2738f263bb2338f203881f3bb1e3bb1d5181c3bb1b38f193bb1853317533,
  0x5f0285e0285d3ab5c0285b0285a0285602855028540285302852028],
  [0x51028500284c0284b0284a30d2838f2738f263bb2338f203881f3bb1e3bb1d5181c3bb1b38f193bb1853317533,
  0x5f0285e0285d3ab5c0285b0285a0285602855028540285302852028],
  [0x51028500284c0284b0284a2ce2838f2738f263bb2338f203881f3bb1e3bb1d5181c3bb1b38f193bb1853317533,
  0x5f0285e0285d3ab5c0285b0285a0285602855028540285302852028],
  [0x51028500284c0284b0284a2d02838f2738f263bb2338f203881f3bb1e3bb1d5181c3bb1b38f193bb1853317533,
  0x5f0285e0285d3ab5c0285b0285a0285602855028540285302852028],
  [0x51028500284c0284b0284a2d12838f2738f263bb2338f203881f3bb1e3bb1d5181c3bb1b38f193bb1853317533,
  0x5f0285e0285d3ab5c0285b0285a0285602855028540285302852028],
  [0x51028500284c0284b0284a1c42838f2738f263bb2338f203881f3bb1e3bb1d5181c3bb1b38f193bb1853317533,
  0x5f0285e0285d3ab5c0285b0285a0285602855028540285302852028],
  [0x51028500284c0284b0284a2312838f2738f263bb2338f203881f3bb1e3bb1d5181c3bb1b38f193bb1853317533,
  0x5f0285e0285d3ab5c0285b0285a0285602855028540285302852028],
  [0x51028500284c0284b0284a1c52838f2738f263bb2338f203881f3bb1e3bb1d5181c3bb1b38f193bb1853317533,
  0x5f0285e0285d3ab5c0285b0285a0285602855028540285302852028],
  [0x51028500284c0284b0284a25b2838f2738f263bb2338f203881f3bb1e3bb1d5181c3bb1b38f193bb1853317533,
  0x5f0285e0285d3ab5c0285b0285a0285602855028540285302852028],
  [0x51028500284c0284b0284a29f2838f2738f263bb2338f203881f3bb1e3bb1d5181c3bb1b38f193bb1853317533,
  0x5f0285e0285d3ab5c0285b0285a0285602855028540285302852028],
  [0x51028500284c0284b0284a25c2838f2738f263bb2338f203881f3bb1e3bb1d5181c3bb1b38f193bb1853317533,
  0x5f0285e0285d3ab5c0285b0285a0285602855028540285302852028],
  [0x51028500284c0284b0284a25d2838f2738f263bb2338f203881f3bb1e3bb1d5181c3bb1b38f193bb1853317533,
  0x5f0285e0285d3ab5c0285b0285a0285602855028540285302852028],
  [0x51028500284c0284b0284a25e2838f2738f263bb2338f203881f3bb1e3bb1d5181c3bb1b38f193bb1853317533,
  0x5f0285e0285d3ab5c0285b0285a0285602855028540285302852028],
  [0x51028500284c0284b0284a1f42838f2738f263bb2338f203881f3bb1e3bb1d5181c3bb1b38f193bb1853317533,
  0x5f0285e0285d3ab5c0285b0285a0285602855028540285302852028],
  [0x51028500284c0284b0284a1f52838f2738f263bb2338f203881f3bb1e3bb1d5181c3bb1b38f193bb1853317533,
  0x5f0285e0285d3ab5c0285b0285a0285602855028540285302852028],
  [0x51028500284c0284b0284a1f62838f2738f263bb2338f203881f3bb1e3bb1d5181c3bb1b38f193bb1853317533,
  0x5f0285e0285d3ab5c0285b0285a0285602855028540285302852028],
  [0x51028500284c0284b0284a1f72838f2738f263bb2338f203881f3bb1e3bb1d5181c3bb1b38f193bb1853317533,
  0x5f0285e0285d3ab5c0285b0285a0285602855028540285302852028],
  [0x5120b5020b4c20b4b20b4a1f22838f2738f264762338f203881f4761e4761d51e1c4761b38f194761853417534,
  0x5f20b5e20b5d4485c20b5b20b5a20b5620b5520b5420b5320b5220b],
  [0x5120b5020b4c20b4b20b4a1f32838f2738f264762338f203881f4761e4761d51e1c4761b38f194761853417534,
  0x5f20b5e20b5d4485c20b5b20b5a20b5620b5520b5420b5320b5220b],
  [0x5120b5020b4c20b4b20b4a1f82838f2738f264762338f203881f4761e4761d51e1c4761b38f194761853417534,
  0x5f20b5e20b5d4485c20b5b20b5a20b5620b5520b5420b5320b5220b],
  [0x5120b5020b4c20b4b20b4a1f92838f2738f264762338f203881f4761e4761d51e1c4761b38f194761853417534,
  0x5f20b5e20b5d4485c20b5b20b5a20b5620b5520b5420b5320b5220b],
  [0x5120b5020b4c20b4b20b4a1fa2838f2738f264762338f203881f4761e4761d51e1c4761b38f194761853417534,
  0x5f20b5e20b5d4485c20b5b20b5a20b5620b5520b5420b5320b5220b],
  [0x5120b5020b4c20b4b20b4a1fb2838f2738f264762338f203881f4761e4761d51e1c4761b38f194761853417534,
  0x5f20b5e20b5d4485c20b5b20b5a20b5620b5520b5420b5320b5220b],
  [0x51168501684c1684b1684a1612838f2738f2647a2338f203881f47a1e47a1d5221c47a1b38f1947a1853617536,
  0x5f1685e1685d44d5c1685b1685a1685616855168541685316852168],
  [0x51168501684c1684b1684a1622838f2738f2647a2338f203881f47a1e47a1d5221c47a1b38f1947a1853617536,
  0x5f1685e1685d44d5c1685b1685a1685616855168541685316852168],
  [0x51168501684c1684b1684a1632838f2738f2647a2338f203881f47a1e47a1d5221c47a1b38f1947a1853617536,
  0x5f1685e1685d44d5c1685b1685a1685616855168541685316852168],
  [0x51168501684c1684b1684a1642838f2738f2647a2338f203881f47a1e47a1d5221c47a1b38f1947a1853617536,
  0x5f1685e1685d44d5c1685b1685a1685616855168541685316852168],
  [0x51168501684c1684b1684a1652838f2738f2647a2338f203881f47a1e47a1d5221c47a1b38f1947a1853617536,
  0x5f1685e1685d44d5c1685b1685a1685616855168541685316852168],
  [0x51168501684c1684b1684a1662838f2738f2647a2338f203881f47a1e47a1d5221c47a1b38f1947a1853617536,
  0x5f1685e1685d44d5c1685b1685a1685616855168541685316852168],
  [0x5119c5019c4c19c4b19c4a1922838f2738f2647f2338f203881f47f1e47f1d5261c47f1b38f1947f1853817538,
  0x5f19c5e19c5d44e5c19c5b19c5a19c5619c5519c5419c5319c5219c],
  [0x5119c5019c4c19c4b19c4a1932838f2738f2647f2338f203881f47f1e47f1d5261c47f1b38f1947f1853817538,
  0x5f19c5e19c5d44e5c19c5b19c5a19c5619c5519c5419c5319c5219c],
  [0x5119c5019c4c19c4b19c4a1942838f2738f2647f2338f203881f47f1e47f1d5261c47f1b38f1947f1853817538,
  0x5f19c5e19c5d44e5c19c5b19c5a19c5619c5519c5419c5319c5219c],
  [0x5119c5019c4c19c4b19c4a1952838f2738f2647f2338f203881f47f1e47f1d5261c47f1b38f1947f1853817538,
  0x5f19c5e19c5d44e5c19c5b19c5a19c5619c5519c5419c5319c5219c],
  [0x5119c5019c4c19c4b19c4a1962838f2738f2647f2338f203881f47f1e47f1d5261c47f1b38f1947f1853817538,
  0x5f19c5e19c5d44e5c19c5b19c5a19c5619c5519c5419c5319c5219c],
  [0x5119c5019c4c19c4b19c4a1972838f2738f2647f2338f203881f47f1e47f1d5261c47f1b38f1947f1853817538,
  0x5f19c5e19c5d44e5c19c5b19c5a19c5619c5519c5419c5319c5219c],
  [0x51260502604c2604b2604a2332838f2738f264842338f203881f4841e4841d52a1c4841b38f194841853a1753a,
  0x5f2605e2605d44f5c2605b2605a2605626055260542605326052260],
  [0x51260502604c2604b2604a2352838f2738f264842338f203881f4841e4841d52a1c4841b38f194841853a1753a,
  0x5f2605e2605d44f5c2605b2605a2605626055260542605326052260],
  [0x51260502604c2604b2604a2382838f2738f264842338f203881f4841e4841d52a1c4841b38f194841853a1753a,
  0x5f2605e2605d44f5c2605b2605a2605626055260542605326052260],
  [0x51260502604c2604b2604a2392838f2738f264842338f203881f4841e4841d52a1c4841b38f194841853a1753a,
  0x5f2605e2605d44f5c2605b2605a2605626055260542605326052260],
  [0x51260502604c2604b2604a23a2838f2738f264842338f203881f4841e4841d52a1c4841b38f194841853a1753a,
  0x5f2605e2605d44f5c2605b2605a2605626055260542605326052260],
  [0x51260502604c2604b2604a23b2838f2738f264842338f203881f4841e4841d52a1c4841b38f194841853a1753a,
  0x5f2605e2605d44f5c2605b2605a2605626055260542605326052260],
  [0x51028500284c0284b0284a1c42838f2738f263bb2338f203881f3bb1e3bb1d5181c3bb1b38f193bb1843217432,
  0x5f0285e0285d3ab5c0285b0285a0285602855028540285302852028],
  [0x5120b5020b4c20b4b20b4a1f12838f2738f264762338f203881f4761e4761d51e1c4761b38f194761853417534,
  0x5f20b5e20b5d4485c20b5b20b5a20b5620b5520b5420b5320b5220b],
  [0x51028500284c0284b0284a2d32838f2738f263bb2338f203881f3bb1e3bb1d5181c3bb1b38f193bb1853317533,
  0x5f0285e0285d3ab5c0285b0285a0285602855028540285302852028],
  [0x51028500284c0284b0284a28c2838f2738f263bb2338f203881f3bb1e3bb1d5181c3bb1b38f193bb1853317533,
  0x5f0285e0285d3ab5c0285b0285a0285602855028540285302852028],
  [0x51028500284c0284b0284a28d2838f2738f263bb2338f203881f3bb1e3bb1d5181c3bb1b38f193bb1853317533,
  0x5f0285e0285d3ab5c0285b0285a0285602855028540285302852028],
  [0x51028500284c0284b0284a28e2838f2738f263bb2338f203881f3bb1e3bb1d5181c3bb1b38f193bb1853317533,
  0x5f0285e0285d3ab5c0285b0285a0285602855028540285302852028],
  [0x51028500284c0284b0284a28f2838f2738f263bb2338f203881f3bb1e3bb1d5181c3bb1b38f193bb1853317533,
  0x5f0285e0285d3ab5c0285b0285a0285602855028540285302852028],
  [0x5120b5020b4c20b4b20b4a1f22838f2738f264762338f203881f4761e4761d51e1c4761b38f194761853517535,
  0x5f20b5e20b5d4485c20b5b20b5a20b5620b5520b5420b5320b5220b],
  [0x51028500284c0284b0284a2a82838f2738f263bb2338f203881f3bb1e3bb1d5181c3bb1b38f193bb1853317533,
  0x5f0285e0285d3ab5c0285b0285a0285602855028540285302852028],
  [0x51168501684c1684b1684a1612838f2738f2647a2338f203881f47a1e47a1d5221c47a1b38f1947a1853717537,
  0x5f1685e1685d44d5c1685b1685a1685616855168541685316852168],
  [0x5119c5019c4c19c4b19c4a1922838f2738f2647f2338f203881f47f1e47f1d5261c47f1b38f1947f1853917539,
  0x5f19c5e19c5d44e5c19c5b19c5a19c5619c5519c5419c5319c5219c],
  [0x51260502604c2604b2604a2332838f2738f264842338f203881f4841e4841d52a1c4841b38f194841853b1753b,
  0x5f2605e2605d44f5c2605b2605a2605626055260542605326052260],
  [0x51028500284c0284b0284a2a22838f2738f263bb2338f203881f3bb1e3bb1d5181c3bb1b38f193bb1853317533,
  0x5f0285e0285d3ab5c0285b0285a0285602855028540285302852028],
  [0x51028500284c0284b0284a2d92838f2738f263bb2338f203881f3bb1e3bb1d5181c3bb1b38f193bb1853317533,
  0x5f0285e0285d3ab5c0285b0285a0285602855028540285302852028],
  [0x51028500284c0284b0284a2da2838f2738f263bb2338f203881f3bb1e3bb1d5181c3bb1b38f193bb1853317533,
  0x5f0285e0285d3ab5c0285b0285a0285602855028540285302852028],
  [0x51028500284c0284b0284a2db2838f2738f263bb2338f203881f3bb1e3bb1d5181c3bb1b38f193bb1848c1748c,
  0x5f0285e0285d3ab5c0285b0285a0285602855028540285302852028],
  [0x51028500284c0284b0284a2aa2838f2738f263bb2338f203881f3bb1e3bb1d5181c3bb1b38f193bb1853317533,
  0x5f0285e0285d3ab5c0285b0285a0285602855028540285302852028],
  [0x51028500284c0284b0284a2e02838f2738f263bb2338f203881f3bb1e3bb1d5181c3bb1b38f193bb1853317533,
  0x5f0285e0285d3ab5c0285b0285a0285602855028540285302852028],
  [0x51028500284c0284b0284a2e12838f2738f263bb2338f203881f3bb1e3bb1d5181c3bb1b38f193bb1853317533,
  0x5f0285e0285d3ab5c0285b0285a0285602855028540285302852028],
  [0x51028500284c0284b0284a2e22838f2738f263bb2338f203881f3bb1e3bb1d5181c3bb1b38f193bb1848c1748c,
  0x5f0285e0285d3ab5c0285b0285a0285602855028540285302852028],
  [0x51028500284c0284b0284a2b12838f2738f263bb2338f203881f3bb1e3bb1d5181c3bb1b38f193bb1853317533,
  0x5f0285e0285d3ab5c0285b0285a0285602855028540285302852028],
  [0x51028500284c0284b0284a2e72838f2738f263bb2338f203881f3bb1e3bb1d5181c3bb1b38f193bb1853317533,
  0x5f0285e0285d3ab5c0285b0285a0285602855028540285302852028],
  [0x51028500284c0284b0284a2e82838f2738f263bb2338f203881f3bb1e3bb1d5181c3bb1b38f193bb1853317533,
  0x5f0285e0285d3ab5c0285b0285a0285602855028540285302852028],
  [0x51028500284c0284b0284a2e92838f2738f263bb2338f203881f3bb1e3bb1d5181c3bb1b38f193bb1848c1748c,
  0x5f0285e0285d3ab5c0285b0285a0285602855028540285302852028],
  [0x51028500284c0284b0284a2b62838f2738f263bb2338f203881f3bb1e3bb1d5181c3bb1b38f193bb1853317533,
  0x5f0285e0285d3ab5c0285b0285a0285602855028540285302852028],
  [0x51028500284c0284b0284a2ee2838f2738f263bb2338f203881f3bb1e3bb1d5181c3bb1b38f193bb1853317533,
  0x5f0285e0285d3ab5c0285b0285a0285602855028540285302852028],
  [0x51028500284c0284b0284a2ef2838f2738f263bb2338f203881f3bb1e3bb1d5181c3bb1b38f193bb1853317533,
  0x5f0285e0285d3ab5c0285b0285a0285602855028540285302852028],
  [0x51028500284c0284b0284a2f02838f2738f263bb2338f203881f3bb1e3bb1d5181c3bb1b38f193bb1848c1748c,
  0x5f0285e0285d3ab5c0285b0285a0285602855028540285302852028],
  [0x51028500284c0284b0284a2bb2838f2738f263bb2338f203881f3bb1e3bb1d5181c3bb1b38f193bb1853317533,
  0x5f0285e0285d3ab5c0285b0285a0285602855028540285302852028],
  [0x51028500284c0284b0284a2f52838f2738f263bb2338f203881f3bb1e3bb1d5181c3bb1b38f193bb1853317533,
  0x5f0285e0285d3ab5c0285b0285a0285602855028540285302852028],
  [0x51028500284c0284b0284a2f62838f2738f263bb2338f203881f3bb1e3bb1d5181c3bb1b38f193bb1853317533,
  0x5f0285e0285d3ab5c0285b0285a0285602855028540285302852028],
  [0x642575d3aa571cc2838f2738f2638f255072338f203aa1f38f1e38f1c38f1b38f1a3931938f1846f1746f],
  [0x6935b4f13f1a4f7], [0x4f13f1a4f7], [0x4e13c], [0x6935b4f16d293c81a525],
  [0x6935b4f16d293e31a525], [0x6935b4f16d1a525], [0x5716b1a393], [0x4f16d1a525], [0x4e16a],
  [0x5719f1a393], [0x4f1a11a529], [0x4e19e],
  [0x6c2985f45d5e45d5d35d283602736026360233602035d1f3601e3601c3601b3601a36419360183b2173b2],
  [0x5d35d283602736026360233602035d1f3601e3601c3601b360193601837010370],
  [0x5d35e283602736026360233602035e1f3601e3601c3601b360193601837010370], [0x4f1ce1a51b],
  [0x631c75d3aa2838f2738f2638f2338f203aa1f38f1e38f1c38f1b38f1938f1854817548],
  [0x6334f5d3aa2838f2738f2638f2338f203aa1f38f1e38f1c38f1b38f1938f1854f1754f], [0x4e1cb],
  [0x693b74f20f1a521], [0x5720d1a393],
  [0x5d3882838f2738f2638f2338f203881f38f1e38f1c38f1b38f1938f1839e1039e],
  [0x5d3aa2838f2738f2638f2338f203aa1f38f1e38f1c38f1b38f1938f1839e1039e], [0x4f20f1a521],
  [0x5d388291d02838f2738f2638f2338f203881f38f1e38f1c38f1b38f1938f183bd103bd],
  [0x642975d3aa2838f2738f2638f2338f203aa1f38f1e38f1c38f1b38f1a3931938f1850017500],
  [0x5d3cd2945c28414274142641423414203cd1f4141e4141c4141b41419414183f2103f2],
  [0x5d3cd2946028414274142641423414203cd1f4141e4141c4141b414194141840310403],
  [0x5d3cd2946228414274142641423414203cd1f4141e4141c4141b414194141840410404], [0x6941a4f2661a52d],
  [0x4e20c], [0x572641a393],
  [0x5d3aa2838f2738f2638f2338f203aa1f38f1e38f1c38f1b38f1938f184f8174f81249011490],
  [0x5d35d294b2283602736026360233602035d1f3601e3601c3601b360193601844010440],
  [0x5d35d294b4283602736026360233602035d1f3601e3601c3601b360193601844110441],
  [0x5d35d294b6283602736026360233602035d1f3601e3601c3601b360193601844210442],
  [0x5d3cd28414274142641423414203cd1f4141e4141c4141b414194141842610426], [0x4f2661a52d],
  [0x5d3ce28414274142641423414203ce1f4141e4141c4141b414194141842610426],
  [0x5d3aa2838f2738f2638f2338f203aa1f38f1e38f1c38f1b38f1938f184f8174f8124bc114bc],
  [0x5d3aa2838f2738f2638f2338f203aa1f38f1e38f1c38f1b38f1938f184f8174f8124c9114c9],
  [0x7449e4f1ce1a51b],
  [0x5d3aa2838f2738f2638f2338f203aa1f38f1e38f1c38f1b38f1938f184f8174f81250611506],
  [0x5d35d283602736026360233602035d1f3601e3601c3601b360193601846710467], [0x6941a4f1ce1a51b],
  [0x4e263], [0x744c84f1ce1a51b], [0x744d44f1ce1a51b], [0x744dc4f1ce1a51b], [0x744e44f1ce1a51b],
  [0x744ec4f1ce1a51b], [0x642525d35d283602736026360233602035d1f3601e3601c3601b36019360183c6173c6],
  [0x5d35d2836027360263602543924439233602035d1f3601e3601c3601b36019360183e2173e2],
  [0x6435f5d35d283602736026360233602035d1f3601e3601c3601b36019360183c9173c9],
  [0x642575d3aa2838f2738f2638f255072338f203aa1f38f1e38f1c38f1b38f1938f1846f1746f],
  [0x5d35d2836027360263602546824468233602035d1f3601e3601c3601b36019360183e2173e2],
  [0x6435f5d3aa2838f2738f2638f2550e2338f203aa1f38f1e38f1c38f1b38f1938f1846f1746f],
  [0x694bb4f1ce1a51b],
  [0x5d35d2836027360263602544424444233602035d1f3601e3601c3601b36019360183e2173e2],
  [0x5d35d2836027360263602544a2444a233602035d1f3601e3601c3601b36019360183e2173e2],
  [0x5d388291412838f2738f2638f2338f203881f38f1e38f1c38f1b38f1938f1845810458],
  [0x5d35d283602736026360233602035d1f3601e3601c3601b36019360183ad173ad0e2c4],
  [0x6435f5d3aa2838f2738f2638f2338f203aa1f38f1e38f1c38f1b38f1938f1850517505],
  [0x6c37f5d35d283602736026360233602035d1f3601e3601c3601b36019360183b5173b5], [0x4f1ce293cb1a51b],
  [0x5d3aa2838f2738f2638f2550a2338f203aa1f38f1e38f1c38f1b38f1938f1846f1746f],
  [0x5d388292112838f2738f2638f2338f203881f38f1e38f1c38f1b38f1938f1847710477],
  [0x5d3882916f2838f2738f2638f2338f203881f38f1e38f1c38f1b38f1938f1847c1047c],
  [0x5d388291a32838f2738f2638f2338f203881f38f1e38f1c38f1b38f1938f1848110481],
  [0x5d388292682838f2738f2638f2338f203881f38f1e38f1c38f1b38f1938f1848610486],
  [0x5d3aa2838f2738f2638f2338f203aa1f38f1e38f1c38f1b38f1938f1849117491],
  [0x5d3aa2838f2738f2638f254922338f203aa1f38f1e38f1c38f1b38f1938f1846f1746f],
  [0x5d35d283602736026360233602035d1f3601e3601c3601b36019360183b0173b0],
  [0x5d3aa2838f2738f2638f2338f203aa1f38f1e38f1c38f1b38f1938f1857b1757b],
  [0x5d3aa2838f2738f2638f2338f203aa1f38f1e38f1c38f1b38f1938f184a8174a8],
  [0x5d3aa2838f2738f2638f2338f203aa1f38f1e38f1c38f1b38f1938f1856c1756c],
  [0x5d3aa2838f2738f2638f2338f203aa1f38f1e38f1c38f1b38f1938f184bd174bd],
  [0x5d3aa2838f2738f2638f2338f203aa1f38f1e38f1c38f1b38f1938f184ca174ca],
  [0x5d3aa2838f2738f2638f2338f203aa1f38f1e38f1c38f1b38f1938f184d5174d5],
  [0x5d3aa2838f2738f2638f2338f203aa1f38f1e38f1c38f1b38f1938f184dd174dd],
  [0x5d3aa2838f2738f2638f2338f203aa1f38f1e38f1c38f1b38f1938f184e5174e5],
  [0x5d3aa2838f2738f2638f254be2338f203aa1f38f1e38f1c38f1b38f1938f1846f1746f],
  [0x5d3aa2838f2738f2638f254cb2338f203aa1f38f1e38f1c38f1b38f1938f1846f1746f],
  [0x5d3882838f2738f2638f2338f203881f38f1e38f1c38f1b38f1938f1839117391],
  [0x5d3882838f2738f2638f2338f203881f38f1e38f1c38f1b38f1938f1839217392],
  [0x5d3882838f2738f2638f2338f203881f38f1e38f1c38f1b38f1938f1839617396],
  [0x5d3aa2838f2738f2638f2338f203aa1f38f1e38f1c38f1b38f1938f1854b1754b],
  [0x5d3882838f2738f2638f2338f203881f38f1e38f1c38f1b38f1938f1839817398],
  [0x5d3aa2838f2738f2638f2338f203aa1f38f1e38f1c38f1b38f1938f1854c1754c],
  [0x5d3882838f2738f2638f2338f203881f38f1e38f1c38f1b38f1938f1839a1739a],
  [0x5d3882838f2738f2638f2338f203881f38f1e38f1c38f1b38f1938f1839b1739b],
  [0x5d3aa2838f2738f2638f2338f203aa1f38f1e38f1c38f1b38f1938f1849517495],
  [0x5d3aa2838f2738f2638f2338f203aa1f38f1e38f1c38f1b38f1938f184ff174ff],
  [0x5d3aa2838f2738f2638f2338f203aa1f38f1e38f1c38f1b38f1938f1855017550],
  [0x5d3882838f2738f2638f2338f203881f38f1e38f1c38f1b38f1938f1839c1739c],
  [0x5d35d283602736026360233602035d1f3601e3601c3601b36019360183af173af],
  [0x5d3882838f2738f2638f2338f203881f38f1e38f1c38f1b38f1938f1839f1739f],
  [0x5d3aa2838f2738f2638f2338f203aa1f38f1e38f1c38f1b38f1938f1855717557],
  [0x5d3aa2838f2738f2638f2338f203aa1f38f1e38f1c38f1b38f1938f1850417504],
  [0x5d35d283602736026360233602035d1f3601e3601c3601b36019360183b4173b4],
  [0x5d35d283602736026360233602035d1f3601e3601c3601b360193601843e1743e],
  [0x5d3882838f2738f2638f2338f203881f38f1e38f1c38f1b38f1938f183a4173a4],
  [0x5d3aa2838f2738f2638f2338f203aa1f38f1e38f1c38f1b38f1938f184a4174a4],
  [0x5d3aa2838f2738f2638f2338f203aa1f38f1e38f1c38f1b38f1938f1839a1739a],
  [0x5d3aa2838f2738f2638f2338f203aa1f38f1e38f1c38f1b38f1938f1839b1739b],
  [0x5d3aa2838f2738f2638f2338f203aa1f38f1e38f1c38f1b38f1938f1839c1739c],
  [0x5d3aa2838f2738f2638f2338f203aa1f38f1e38f1c38f1b38f1938f1839f1739f],
  [0x5d3aa2838f2738f2638f2338f203aa1f38f1e38f1c38f1b38f1938f183a4173a4],
  [0x5d35d283602736026360233602035d1f3601e3601c3601b360193601836b1736b],
  [0x5d35d283602736026360233602035d1f3601e3601c3601b360193601836c1736c],
  [0x5d35d283602736026360233602035d1f3601e3601c3601b360193601836e1736e],
  [0x5d35d283602736026360233602035d1f3601e3601c3601b360193601837117371],
  [0x5d35d283602736026360233602035d1f3601e3601c3601b360193601837617376],
  [0x5d35e283602736026360233602035e1f3601e3601c3601b360193601836b1736b],
  [0x5d35e283602736026360233602035e1f3601e3601c3601b360193601836c1736c],
  [0x5d35e283602736026360233602035e1f3601e3601c3601b360193601836e1736e],
  [0x5d35e283602736026360233602035e1f3601e3601c3601b360193601837117371],
  [0x5d35e283602736026360233602035e1f3601e3601c3601b360193601837617376],
  [0x5d3cd28414274142641423414203cd1f4141e4141c4141b414194141842017420],
  [0x5d3cd28414274142641423414203cd1f4141e4141c4141b414194141842117421],
  [0x5d3cd28414274142641423414203cd1f4141e4141c4141b414194141842417424],
  [0x5d3cd28414274142641423414203cd1f4141e4141c4141b414194141842717427],
  [0x5d3cd28414274142641423414203cd1f4141e4141c4141b414194141842c1742c],
  [0x5d3ce28414274142641423414203ce1f4141e4141c4141b414194141842017420],
  [0x5d3ce28414274142641423414203ce1f4141e4141c4141b414194141842117421],
  [0x5d3ce28414274142641423414203ce1f4141e4141c4141b414194141842417424],
  [0x5d3ce28414274142641423414203ce1f4141e4141c4141b414194141842717427],
  [0x5d3ce28414274142641423414203ce1f4141e4141c4141b414194141842c1742c],
  [0x5d35e283602736026360233602035e1f3601e3601c3601b360193601836217362],
  [0x5d3aa2838f2738f2638f2338f203aa1f38f1e38f1c38f1b38f1938f1839217392],
  [0x5d3aa2838f2738f2638f2338f203aa1f38f1e38f1c38f1b38f1938f1839617396],
  [0x5d3aa2838f2738f2638f2338f203aa1f38f1e38f1c38f1b38f1938f1856317563],
  [0x5d3aa2838f2738f2638f2338f203aa1f38f1e38f1c38f1b38f1938f1839817398],
  [0x5d3aa2838f2738f2638f2338f203aa1f38f1e38f1c38f1b38f1938f184b7174b7],
  [0x5d3ce28414274142641423414203ce1f4141e4141c4141b414194141841617416],
  [0x5d35d283602736026360233602035d1f3601e3601c3601b360193601836317363],
  [0x5d35d283602736026360233602035d1f3601e3601c3601b360193601836717367],
  [0x5d3aa2838f2738f2638f2338f203aa1f38f1e38f1c38f1b38f1938f1856417564],
  [0x5d35d283602736026360233602035d1f3601e3601c3601b360193601836917369],
  [0x5d35e283602736026360233602035e1f3601e3601c3601b360193601836317363],
  [0x5d35e283602736026360233602035e1f3601e3601c3601b360193601836717367],
  [0x5d35e283602736026360233602035e1f3601e3601c3601b360193601836917369],
  [0x5d3cd28414274142641423414203cd1f4141e4141c4141b414194141841717417],
  [0x5d3cd28414274142641423414203cd1f4141e4141c4141b414194141841c1741c],
  [0x5d3cd28414274142641423414203cd1f4141e4141c4141b414194141841e1741e],
  [0x5d3ce28414274142641423414203ce1f4141e4141c4141b414194141841717417],
  [0x5d3ce28414274142641423414203ce1f4141e4141c4141b414194141841c1741c],
  [0x5d3ce28414274142641423414203ce1f4141e4141c4141b414194141841e1741e],
  [0x5d3aa2838f2738f2638f2338f203aa1f38f1e38f1c38f1b38f1938f1856917569],
  [0x5d3aa2838f2738f2638f2338f203aa1f38f1e38f1c38f1b38f1938f184c0174c0],
  [0x5d3aa2838f2738f2638f2338f203aa1f38f1e38f1c38f1b38f1938f1857117571],
  [0x5d3aa2838f2738f2638f2338f203aa1f38f1e38f1c38f1b38f1938f184cd174cd],
  [0x5d3aa2838f2738f2638f2338f203aa1f38f1e38f1c38f1b38f1938f1857417574],
  [0x5d3aa2838f2738f2638f2338f203aa1f38f1e38f1c38f1b38f1938f1857817578],
  [0x5d3aa2838f2738f2638f2338f203aa1f38f1e38f1c38f1b38f1938f184d7174d7],
  [0x5d3aa2838f2738f2638f2338f203aa1f38f1e38f1c38f1b38f1938f1857f1757f],
  [0x5d3aa2838f2738f2638f2338f203aa1f38f1e38f1c38f1b38f1938f184df174df],
  [0x5d3aa2838f2738f2638f2338f203aa1f38f1e38f1c38f1b38f1938f1858217582],
  [0x5d3aa2838f2738f2638f2338f203aa1f38f1e38f1c38f1b38f1938f1858617586],
  [0x5d3aa2838f2738f2638f2338f203aa1f38f1e38f1c38f1b38f1938f184e7174e7],
  [0x5d3aa2838f2738f2638f2338f203aa1f38f1e38f1c38f1b38f1938f1858917589], [0x6334f], [0x1a364],
  [0x6935c], [0x1a365], [0x6435f], [0x6c37f], [0x1a393], [0x5f4635e4631a364], [0x1a394],
  [0x5f45e5e45e1a365], [0x1a36410240], [0x5f4645e4641a365], [0x571cd1a394],
  [0x5d38922438204fb193ae], [0x5f45e5e45e], [0x5f4645e464], [0x5f4655e465],
  [0x5d38922466204fb193ae], [0x5f46d5e46d], [0x693b8], [0x1a418], [0x571cd],
  [0x5d38922443204fb193ae], [0x291d7], [0x5d38922449204fb193ae], [0x6f3c7], [0x6f3ca], [0x1a419],
  [0x703e5443e5433e5], [0x733e9493e9443e9], [0x1a39310203], [0x6e3f5], [0x703f7443f7433f7],
  [0x713fa473fa443fa], [0x703fc443fc433fc], [0x733fe493fe443fe], [0x6e470], [0x29461], [0x6e405],
  [0x704084440843408], [0x7140b4740b4440b], [0x2946b], [0x2946c], [0x704114441143411], [0x69423],
  [0x1a3931020a], [0x5713e1a394], [0x684361543513435], [0x6843a1543513435], [0x5d38b204fb193b1],
  [0x6b43b], [0x6d43c], [0x6b43d], [0x6d43f], [0x294b5], [0x294b9], [0x294ba], [0x6b446], [0x6d447],
  [0x5720e1a394], [0x6b44b], [0x6d44c], [0x5716c1a394], [0x571a01a394], [0x572651a394],
  [0xb3d30a3d3], [0x153d4133d4], [0x5713e], [0x624560848e], [0x654570a48f], [0x102000e4fa],
  [0x6245a0848e], [0x6545b0a48f], [0x29147], [0x7549c], [0x3e40629406], [0x72469], [0x3e41229412],
  [0x6e471], [0x102080e51c], [0x754c6], [0x5720e], [0x29217], [0x754d2], [0x7647b], [0x5716c],
  [0x29176], [0x754da], [0x76480], [0x571a0], [0x291aa], [0x754e2], [0x76485], [0x57265], [0x2926f],
  [0x754ea], [0x76489], [0x83d2], [0x10293], [0x67497], [0x6949a], [0x6a49b], [0x7249d], [0x7449e],
  [0x6749f], [0x664a1], [0x694c2], [0x6a4a5], [0x754a7], [0x744a9], [0xf50f], [0x664ab], [0x724ad],
  [0x694ee], [0x674c3], [0x694c4], [0x6a4c5], [0x724c7], [0x744c8], [0x674cf], [0x694d0], [0x6a4d1],
  [0x724d3], [0x744d4], [0x694d9], [0x724db], [0x744dc], [0x694e1], [0x724e3], [0x744e4], [0x694e9],
  [0x724eb], [0x744ec], [0x102bf], [0x21390], [0x101fe], [0x101ef], [0x293e3], [0x4f146], [0xf498],
  [0x10202], [0x21361], [0x101f0], [0x4f1d6], [0x10209], [0x21415], [0x1019a], [0x4f216], [0x1019b],
  [0x4f175], [0x10232], [0x4f1a9], [0x10234], [0x4f26e], [0x102a1], [0x102a9], [0x102b0], [0x102b5],
  [0x102ba]]

end ImportGroups.Source.Automaton
